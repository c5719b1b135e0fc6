import TodoPlugin.Blank
import Mathlib.Data.List.DropRight
/-!
# The tokens of a command

`ExecuteCommand` trims what Unicode calls white space, makes one blank of every run of what `\s` matches, which is less,
and splits at blanks.  A vertical tab or a no-break space between words thus stays inside a token, and none is left at
either end of the text: every token has a character, and the last one has one that is no white space.
-/
namespace Todo

open Proc (Only)

/-! ## What trimming leaves -/

theorem trimSpace_eq (cs : List Char) : trimSpace cs = (cs.dropWhile isSpace).rdropWhile isSpace := rfl

theorem trimSpace_ne_nil {cs : List Char} (h : ∃ c ∈ cs, isSpace c = false) : trimSpace cs ≠ [] := by
  intro hnil
  rw [trimSpace_eq, List.rdropWhile_eq_nil_iff] at hnil
  have hleft : cs.dropWhile isSpace ≠ [] := by
    intro hdrop
    obtain ⟨c, hc, hsp⟩ := h
    rw [List.dropWhile_eq_nil_iff.1 hdrop c hc] at hsp
    cases hsp
  -- the first character left is no white space, yet is trimmed from the right
  have hhead := List.head_dropWhile_not isSpace hleft
  rw [hnil _ (List.head_mem hleft)] at hhead
  cases hhead

/-- The text starts with a character that is no white space. -/
theorem head_trimSpace {cs rest : List Char} {c : Char} (h : trimSpace cs = c :: rest) : isSpace c = false := by
  have hpre : c :: rest <+: cs.dropWhile isSpace := h ▸ List.rdropWhile_prefix isSpace _
  obtain ⟨suf, hsuf⟩ := hpre
  have hhead := List.head?_dropWhile_not isSpace cs
  rw [← hsuf] at hhead
  exact hhead

/-- The text ends in a character that is no white space. -/
theorem trimSpace_concat {cs : List Char} (h : ∃ c ∈ cs, isSpace c = false) :
    ∃ init c, trimSpace cs = init ++ [c] ∧ isSpace c = false := by
  have hne := trimSpace_ne_nil h
  refine ⟨(trimSpace cs).dropLast, (trimSpace cs).getLast hne, (List.dropLast_append_getLast hne).symm, ?_⟩
  exact Bool.eq_false_iff.2 (List.rdropWhile_last_not isSpace (cs.dropWhile isSpace) hne)

/-! ## The characters of the words -/

theorem ne_blank_of_isReSpace {c : Char} (h : isReSpace c = false) : c ≠ ' ' := by
  rintro rfl
  cases h

/-- A run of `\s` leaves a blank and nothing else of it. -/
theorem mem_replaceSpaces : ∀ {cs : List Char} {run : Bool} {c : Char}, c ∈ replaceSpaces run cs → c ≠ ' ' →
    isReSpace c = false
  | [], _, _, hc, _          => by cases hc
  | d :: cs, run, c, hc, hne => by
    rw [replaceSpaces] at hc
    split at hc
    · split at hc
      · exact mem_replaceSpaces hc hne
      · rcases List.mem_cons.1 hc with he | hc
        · exact absurd he hne
        · exact mem_replaceSpaces hc hne
    · rename_i hd
      rcases List.mem_cons.1 hc with rfl | hc
      · simpa using hd
      · exact mem_replaceSpaces hc hne

/-- No word has a blank, and its characters are of the text. -/
theorem mem_splitBlanks : ∀ {cs word : List Char}, word ∈ (splitBlanks cs).1 :: (splitBlanks cs).2 →
    ∀ c ∈ word, c ∈ cs ∧ c ≠ ' '
  | [], word, hw, c, hc      => by
    rw [splitBlanks, List.mem_singleton] at hw
    rw [hw] at hc
    cases hc
  | d :: cs, word, hw, c, hc => by
    rw [splitBlanks] at hw
    split at hw
    · rcases List.mem_cons.1 hw with rfl | hw
      · cases hc
      · have := mem_splitBlanks hw c hc
        exact ⟨List.mem_cons_of_mem _ this.1, this.2⟩
    · rename_i hd
      rcases List.mem_cons.1 hw with rfl | hw
      · rcases List.mem_cons.1 hc with rfl | hc
        · exact ⟨List.mem_cons_self, hd⟩
        · have := mem_splitBlanks List.mem_cons_self c hc
          exact ⟨List.mem_cons_of_mem _ this.1, this.2⟩
      · have := mem_splitBlanks (List.mem_cons_of_mem _ hw) c hc
        exact ⟨List.mem_cons_of_mem _ this.1, this.2⟩

theorem replaceSpaces_concat {c : Char} (hc : isReSpace c = false) : ∀ (cs : List Char) (run : Bool),
    replaceSpaces run (cs ++ [c]) = replaceSpaces run cs ++ [c]
  | [], run      => by simp [replaceSpaces, hc]
  | d :: cs, run => by
    simp only [List.cons_append, replaceSpaces, replaceSpaces_concat hc cs]
    split
    · split <;> rfl
    · rfl

/-- **A last character that is no blank is of the last word.** -/
theorem mem_splitBlanks_concat {c : Char} (hc : c ≠ ' ') : ∀ cs : List Char,
    c ∈ (splitBlanks (cs ++ [c])).2.getLastD (splitBlanks (cs ++ [c])).1
  | []      => by simp [splitBlanks, hc]
  | d :: cs => by
    have ih := mem_splitBlanks_concat hc cs
    rw [List.cons_append, splitBlanks]
    split
    · rwa [List.getLastD_cons]
    · cases hrest : (splitBlanks (cs ++ [c])).2 with
      | nil =>
        rw [hrest, List.getLastD_nil] at ih
        rw [List.getLastD_nil]
        exact List.mem_cons_of_mem _ ih
      | cons word words =>
        rw [hrest, List.getLastD_cons] at ih
        rwa [List.getLastD_cons]

/-! ## The tokens -/

/-- The text has a character that is no white space. -/
def Visible (text : String) : Prop := ∃ c ∈ text.toList, isSpace c = false

theorem token_plain {text token : String} (h : token ∈ (stringArgs text).1 :: (stringArgs text).2) :
    ∀ c ∈ token.toList, isReSpace c = false := by
  obtain ⟨word, hword, rfl⟩ : ∃ word ∈ (splitBlanks (replaceSpaces false (trimSpace text.toList))).1 ::
      (splitBlanks (replaceSpaces false (trimSpace text.toList))).2, String.ofList word = token := List.mem_map.1 h
  intro c hc
  rw [String.toList_ofList] at hc
  obtain ⟨hmem, hne⟩ := mem_splitBlanks hword c hc
  exact mem_replaceSpaces hmem hne

theorem first_token_ne_empty {text : String} (h : Visible text) : (stringArgs text).1 ≠ "" := by
  intro he
  cases htrim : trimSpace text.toList with
  | nil => exact trimSpace_ne_nil h htrim
  | cons c cs =>
    have hre : isReSpace c = false := isReSpace_of_isSpace (head_trimSpace htrim)
    have hlist := congrArg String.toList he
    simp [stringArgs, htrim, replaceSpaces, hre, splitBlanks, ne_blank_of_isReSpace hre] at hlist

theorem last_token_visible {text : String} (h : Visible text) :
    Visible ((stringArgs text).2.getLastD (stringArgs text).1) := by
  obtain ⟨init, c, htrim, hc⟩ := trimSpace_concat h
  have hre := isReSpace_of_isSpace hc
  refine ⟨c, ?_, hc⟩
  rw [stringArgs, htrim, replaceSpaces_concat hre]
  simp only [List.getLastD_map, String.toList_ofList]
  exact mem_splitBlanks_concat (ne_blank_of_isReSpace hre) _

/-- **Joined tokens are visible where the last one is.** -/
theorem visible_intercalate : ∀ (words : List String) (word : String), Visible (words.getLastD word) →
    Visible (" ".intercalate (word :: words))
  | [], word, h            => by rwa [String.intercalate_singleton]
  | next :: words, word, h => by
    rw [List.getLastD_cons] at h
    obtain ⟨c, hc, hsp⟩ := visible_intercalate words next h
    refine ⟨c, ?_, hsp⟩
    rw [String.intercalate_cons_cons, String.toList_append]
    exact List.mem_append_right _ hc

/-! ## What the commands store -/

/-- The call stores no record whose message is empty or white space alone. -/
def Call.StoresVisible : Call → Prop
  | .kvSet _ value | .kvCompareAndSet _ _ value => ∀ i, value = .issue i → Visible i.message
  | _                                           => True

theorem Call.Quiet.storesVisible {c : Call} (h : c.Quiet) : c.StoresVisible := by
  cases c with
  | kvSet | kvCompareAndSet | kvDelete | newId => exact h.elim
  | _ => trivial

theorem Call.Saves.storesVisible {m : String} (hm : Visible m) {c : Call} (h : c.Saves m) : c.StoresVisible := by
  cases c with
  | kvSet key value =>
    obtain ⟨i, rfl, rfl⟩ := h
    rintro j hj
    cases hj
    exact hm
  | kvCompareAndSet key old value =>
    obtain ⟨list, rfl⟩ := h
    exact nofun
  | _ => trivial

theorem storesVisible_of_quiet {α : Type} {p : Api α} (h : p.Only Call.Quiet True) :
    p.Only Call.StoresVisible True := h.mono (fun _ hc => hc.storesVisible) id

theorem storesVisible_of_saves {α : Type} {m : String} {p : Api α} (h : p.Only (Call.Saves m) True)
    (hm : Visible m) : p.Only Call.StoresVisible True := h.mono (fun _ hc => hc.storesVisible hm) id

/-! ## Adding and sending -/

section commands
variable {args : CommandArgs}

theorem storesVisible_runAddCommand (args : CommandArgs) {word : String} {words : List String}
    (h : Visible (" ".intercalate (word :: words))) :
    (runAddCommand (word :: words) args).Only Call.StoresVisible True := by
  have hne : " ".intercalate (word :: words) ≠ "" := by
    intro he
    obtain ⟨c, hc, -⟩ := h
    rw [he] at hc
    cases hc
  obtain ⟨f, hf, hquiet⟩ := runAddCommand_adds args hne True
  rw [hf]
  exact .bind (storesVisible_of_saves (ListManager.saves_addIssue ..) h) fun res => storesVisible_of_quiet (hquiet res)

theorem storesVisible_sendCommand (args : CommandArgs) (userName : String) {message : String} (h : Visible message)
    (receiver : User) : (sendCommand userName message receiver args).Only Call.StoresVisible True := by
  obtain ⟨f, hf, hquiet⟩ := sendCommand_sends args userName message receiver True
  rw [hf]
  exact .bind (storesVisible_of_saves (ListManager.saves_sendIssue ..) h) fun res => storesVisible_of_quiet (hquiet res)

theorem storesVisible_runSendCommand (args : CommandArgs) {arg word : String} {words : List String}
    (h : Visible (" ".intercalate (word :: words))) :
    (runSendCommand (arg :: word :: words) args).Only Call.StoresVisible True := by
  have hpost : ∀ text, (postCommandResponse args text >>= fun _ => pure (false, none)).Only (α := Bool × Option String)
      Call.StoresVisible True := fun text =>
    storesVisible_of_quiet (.bind (quiet_postCommandResponse ..) fun _ => trivial)
  simp only [runSendCommand]
  cases userArg arg with
  | none => trivial
  | some userName =>
    apply Only.bind (.request trivial)
    rintro (err | receiver)
    · exact hpost _
    · simp only
      split
      · exact storesVisible_runAddCommand args h
      · apply Only.bind (storesVisible_of_quiet (quiet_getAllowIncomingTaskRequestsPreference _))
        rintro ⟨preference, err⟩
        simp only
        generalize (if err.isSome = true then true else preference) = allowed
        cases allowed with
        | true => exact storesVisible_sendCommand args userName h receiver
        | false => exact hpost _

/-- A command with a handler is the handler on what follows its name. -/
theorem executeCommand_handled {name : String} {handler : List String → CommandArgs → Api (Bool × Option String)}
    (hname : commandHandler name = some handler) {words : List String}
    (h : (stringArgs args.command).2 = name :: words) :
    executeCommand args = handler words args >>= reportError args := by
  simp only [executeCommand, h, hname]

theorem userArg_ne_none {arg : String} (h : arg ≠ "") : userArg arg ≠ none := by
  unfold userArg
  split
  · rename_i hlist
    exact absurd (String.toList_inj.1 hlist) h
  · exact Option.some_ne_none _
  · exact Option.some_ne_none _

theorem token_ne_empty {text token : String} (h : Visible text)
    (htoken : token ∈ (stringArgs text).1 :: (stringArgs text).2) : token ≠ "" := by
  rcases List.mem_cons.1 htoken with rfl | hrest
  · exact first_token_ne_empty h
  · exact words_ne_empty text token hrest

/-- **What follows `add` is added.** -/
theorem executeCommand_adds {word : String} {words : List String}
    (hargs : (stringArgs args.command).2 = "add" :: word :: words) :
    ∃ f, executeCommand args =
      ListManager.addIssue args.userID (" ".intercalate (word :: words)) "" "" "" >>= f := by
  have hword : word ≠ "" := by
    apply words_ne_empty args.command
    rw [hargs]
    simp
  obtain ⟨f, hf, -⟩ := runAddCommand_adds args (intercalate_ne_empty hword words) True
  exact ⟨_, by rw [executeCommand_handled rfl hargs, hf, Proc.bind_assoc]⟩

/-- A mere `add` posts, where adding would begin with a new id. -/
theorem executeCommand_add_nil (hargs : (stringArgs args.command).2 = ["add"]) {m p d q : String}
    {f : Except String Issue → Api Unit} : executeCommand args ≠ ListManager.addIssue args.userID m p d q >>= f := by
  rw [executeCommand_handled rfl hargs]
  intro hf
  injection hf with hcall
  cases hcall

theorem storesVisible_reportError (args : CommandArgs) (res : Bool × Option String) :
    (reportError args res).Only Call.StoresVisible True := storesVisible_of_quiet (quiet_reportError args res)

theorem storesVisible_add (h : Visible args.command) {words : List String}
    (hargs : (stringArgs args.command).2 = "add" :: words) : (executeCommand args).Only Call.StoresVisible True := by
  have hlast := last_token_visible h
  rw [executeCommand_handled rfl hargs]
  rw [hargs, List.getLastD_cons] at hlast
  cases words with
  | nil => exact .bind (storesVisible_of_quiet (quiet_runAddCommand args rfl)) (storesVisible_reportError args)
  | cons word words =>
    rw [List.getLastD_cons] at hlast
    exact .bind (storesVisible_runAddCommand args (visible_intercalate words word hlast))
      (storesVisible_reportError args)

theorem storesVisible_send (h : Visible args.command) {words : List String}
    (hargs : (stringArgs args.command).2 = "send" :: words) : (executeCommand args).Only Call.StoresVisible True := by
  have hlast := last_token_visible h
  rw [executeCommand_handled rfl hargs]
  rw [hargs, List.getLastD_cons] at hlast
  rcases words with _ | ⟨arg, _ | ⟨word, words⟩⟩
  · exact .bind (storesVisible_of_quiet (.bind (quiet_postCommandResponse ..) fun _ => trivial))
      (storesVisible_reportError args)
  · exact .bind (storesVisible_of_quiet (.bind (quiet_postCommandResponse ..) fun _ => trivial))
      (storesVisible_reportError args)
  · rw [List.getLastD_cons, List.getLastD_cons] at hlast
    exact .bind (storesVisible_runSendCommand args (visible_intercalate words word hlast))
      (storesVisible_reportError args)

/-- **The tokens of a command are safe.**  Of a text that is not white space alone, no token is empty or has a character
`\s` matches, and the last one is visible.  So `send` finds a first byte in its first argument, `add` is `AddIssue` of its
tokens if it has any, and neither stores a record whose message is empty or white space alone, whatever the server
answers. -/
theorem tokens_safe (h : Visible args.command) :
    (∀ token ∈ (stringArgs args.command).1 :: (stringArgs args.command).2,
      token ≠ "" ∧ ∀ c ∈ token.toList, isReSpace c = false) ∧
    Visible ((stringArgs args.command).2.getLastD (stringArgs args.command).1) ∧
    (∀ arg rest, (stringArgs args.command).2 = "send" :: arg :: rest → userArg arg ≠ none) ∧
    (∀ words, (stringArgs args.command).2 = "add" :: words →
      ((∃ f, executeCommand args =
        ListManager.addIssue args.userID (" ".intercalate words) "" "" "" >>= f) ↔ words ≠ []) ∧
      (words = [] → (executeCommand args).Only Call.Quiet True)) ∧
    ∀ words, (stringArgs args.command).2 = "add" :: words ∨ (stringArgs args.command).2 = "send" :: words →
      (executeCommand args).Only Call.StoresVisible True := by
  refine ⟨fun token htoken => ⟨token_ne_empty h htoken, token_plain htoken⟩, last_token_visible h, ?_, ?_, ?_⟩
  · intro arg rest hargs
    apply userArg_ne_none
    apply token_ne_empty h
    rw [hargs]
    simp
  · intro words hargs
    cases words with
    | nil =>
      refine ⟨⟨?_, fun hne => absurd rfl hne⟩, fun _ => ?_⟩
      · rintro ⟨f, hf⟩
        exact absurd hf (executeCommand_add_nil hargs)
      · rw [executeCommand_handled rfl hargs]
        exact .bind (quiet_runAddCommand args rfl) fun res => quiet_reportError args res
    | cons word words =>
      refine ⟨⟨fun _ => List.cons_ne_nil word words, fun _ => executeCommand_adds hargs⟩, fun hnil => ?_⟩
      cases hnil
  · rintro words (hargs | hargs)
    · exact storesVisible_add h hargs
    · exact storesVisible_send h hargs

end commands

section sample

/-- A command to send a todo, with a vertical tab in its message. -/
def sendWithTab : CommandArgs := ⟨"u", "ch", " /todo  send\t@bob a\u000bb \u00a0"⟩

theorem tokens_safe_send : userArg "@bob" ≠ none ∧ (executeCommand sendWithTab).Only Call.StoresVisible True := by
  have hvisible : Visible sendWithTab.command := ⟨'/', by decide, by decide⟩
  have hargs : (stringArgs sendWithTab.command).2 = ["send", "@bob", "a\u000bb"] := by decide
  obtain ⟨-, -, hsend, -, hstore⟩ := tokens_safe hvisible
  exact ⟨hsend "@bob" ["a\u000bb"] hargs, hstore ["@bob", "a\u000bb"] (.inr hargs)⟩

end sample

end Todo
