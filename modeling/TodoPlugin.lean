import TodoPlugin.Lib.Pool
import TodoPlugin.Entries
import TodoPlugin.Splicing
import TodoPlugin.EditRace
import TodoPlugin.DeleteRace
import TodoPlugin.WithdrawRace
import TodoPlugin.ListCommits
import TodoPlugin.AssignRace
import TodoPlugin.Bumping
import TodoPlugin.Dropping
import TodoPlugin.Handover
import TodoPlugin.ReassignFaults
import TodoPlugin.EditFaults
import TodoPlugin.OptOut
import TodoPlugin.Tokens
import TodoPlugin.Legacy
import TodoPlugin.AssigneeForm
import TodoPlugin.Refresh
import TodoPlugin.Spacing
import TodoPlugin.ActionPosts
import TodoPlugin.Announced
import TodoPlugin.Listing
import TodoPlugin.Offers
import TodoPlugin.Contention
import TodoPlugin.Clearing
import TodoPlugin.Daily
import TodoPlugin.Telling
import TodoPlugin.Origins
import TodoPlugin.Authority
import TodoPlugin.Undo
