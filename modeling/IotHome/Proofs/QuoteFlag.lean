import IotHome.Cmd.CmdInput
import IotHome.Proofs.Completion

/-!
# Whether the input knows that it is in a quotation

`parseCommand` is in a quotation at the end of a text just if there is an odd
number of quotes in it, so every quote that comes or goes has to turn what is
kept in `_cache`. A quote that is typed does, wherever it is typed. But for a
backspace the handler looks at the last letter and not at the one that goes,
and what a tab puts in comes without its quotes, at a time when others may have
been typed. `inStep_iff` says which steps go well.
-/

namespace IotHome.Cmd

open IotHome.Lib

/-- The state in which `parseCommand` ends. -/
def endsInQuotes (text : JsString) : Bool := (Scan.init.scan text).inQuotes

/-- What is kept is what `parseCommand` comes to. -/
def InputState.Synced (s : InputState) : Prop :=
  s.inQuotes = endsInQuotes s.text

/-- The state after some events. -/
def inputAfter (toLowerCase : JsString → JsString)
    (events : List InputEvent) : InputState :=
  events.foldl (InputState.step toLowerCase) .start

/-- In every state of the run what is kept is right, and `Enter` submits just
the texts whose quotes are closed. -/
structure InStep (toLowerCase : JsString → JsString)
    (events : List InputEvent) : Prop where
  synced : ∀ done rest, events = done ++ rest →
    (inputAfter toLowerCase done).Synced
  enter : ∀ done caret rest, events = done ++ .press .enter caret :: rest →
    ((inputAfter toLowerCase done).press .enter caret).submitted =
      if endsInQuotes (inputAfter toLowerCase done).text then
        (inputAfter toLowerCase done).submitted
      else (inputAfter toLowerCase done).submitted ++
        [(inputAfter toLowerCase done).text]

/-- The steps that go well. A backspace takes a quote away just if the text
ends with one. A single suggestion has as many quotes as the input is in, or is
a quote alone that is put in before there was any; otherwise the input is in
none when the answer comes. -/
def StepOk (toLowerCase : JsString → JsString) (s : InputState) :
    InputEvent → Prop
  | .press .backspace caret =>
      (s.text.take caret).getLast? = some quote ↔
        s.text.getLast? = some quote
  | .press _ _ => True
  | .answer i cmdlist => ∀ command, s.pending[i]? = some command →
      match suggestionsOf toLowerCase (fun _ => cmdlist) command with
      | [suggestion] => s.inQuotes = endsInQuotes suggestion ∨
          joinArgs (completeCmdArgs command ++ [suggestion]) = [quote] ∧
            s.cached = none
      | _ => s.inQuotes = false

/-! ## Quotes in a text -/

theorem flush_inQuotes (s : Scan) : s.flush.inQuotes = s.inQuotes := by
  rw [Scan.flush]
  split
  · rfl
  · rfl

theorem read_inQuotes (s : Scan) (u : UInt16) :
    (s.read u).inQuotes = (s.inQuotes ^^ (u == quote)) := by
  rw [Scan.read]
  split
  · next h =>
      rw [flush_inQuotes, h.2, show (space == quote) = false from by decide,
        Bool.xor_false]
  · split
    · next hu =>
        cases hq : s.inQuotes with
        | true => simp [hu]
        | false => simp [hu]
    · next hu => rw [beq_eq_false_iff_ne.2 hu, Bool.xor_false]

theorem scan_inQuotes (text : JsString) : ∀ s : Scan,
    (s.scan text).inQuotes = (s.inQuotes ^^ endsInQuotes text) := by
  induction text with
  | nil =>
      intro s
      exact (Bool.xor_false s.inQuotes).symm
  | cons u text ih =>
      intro s
      rw [endsInQuotes, scan_cons, scan_cons, ih, ih, read_inQuotes,
        read_inQuotes]
      simp [Scan.init]

theorem endsInQuotes_append (a b : JsString) :
    endsInQuotes (a ++ b) = (endsInQuotes a ^^ endsInQuotes b) := by
  rw [endsInQuotes, scan_append, scan_inQuotes]
  rfl

theorem endsInQuotes_singleton (u : UInt16) :
    endsInQuotes [u] = (u == quote) := by
  rw [endsInQuotes, scan_cons, show ∀ s : Scan, s.scan [] = s from fun _ => rfl,
    read_inQuotes]
  exact Bool.false_xor _

theorem endsInQuotes_of_not_mem {text : JsString} (h : quote ∉ text) :
    endsInQuotes text = false := by
  induction text with
  | nil => rfl
  | cons u text ih =>
      rw [List.mem_cons, not_or] at h
      have happend := endsInQuotes_append [u] text
      rw [List.singleton_append] at happend
      rw [happend, endsInQuotes_singleton, ih h.2,
        beq_eq_false_iff_ne.2 (Ne.symm h.1)]
      rfl

theorem quote_not_mem_utf16Encode {c : Char} (hc : c ≠ '`') :
    quote ∉ utf16Encode c := by
  have hquote : quote.toNat = 96 := rfl
  have hbounds := char_bounds c
  rw [utf16Encode]
  split
  · next hlt =>
      rw [List.mem_singleton, unit]
      intro heq
      have hnat := congrArg UInt16.toNat heq
      rw [hquote, UInt16.toNat_ofNat', Nat.mod_eq_of_lt hlt] at hnat
      exact hc (Char.toNat_inj.1 hnat.symm)
  · rw [List.mem_cons, List.mem_singleton, not_or]
    constructor
    · intro heq
      have hnat := congrArg UInt16.toNat heq
      rw [hquote, UInt16.toNat_ofNat'] at hnat
      omega
    · intro heq
      have hnat := congrArg UInt16.toNat heq
      rw [hquote, UInt16.toNat_ofNat'] at hnat
      omega

theorem endsInQuotes_concat (text : JsString) (u : UInt16) :
    endsInQuotes (text ++ [u]) = (endsInQuotes text ^^ (u == quote)) := by
  rw [endsInQuotes_append, endsInQuotes_singleton]

theorem ne_quote_of_le {u : UInt16} (h : 0xD800 ≤ u) :
    (u == quote) = false := by
  rw [beq_eq_false_iff_ne]
  intro heq
  rw [heq] at h
  exact absurd h (by decide)

/-- The last character goes, and with it a quote if it is one. -/
theorem endsInQuotes_dropLastChar (text : JsString) :
    endsInQuotes (InputState.dropLastChar text) =
      (endsInQuotes text ^^ (text.getLast? == some quote)) := by
  rcases List.eq_nil_or_concat' text with rfl | ⟨front, low, rfl⟩
  · rfl
  · have hlast : ((front ++ [low]).getLast? == some quote) =
        (low == quote) := by
      rw [List.getLast?_concat]
      rfl
    have hfront : endsInQuotes front =
        (endsInQuotes (front ++ [low]) ^^ (low == quote)) := by
      rw [endsInQuotes_concat, Bool.xor_assoc, Bool.xor_self, Bool.xor_false]
    rw [hlast, ← hfront]
    rcases List.eq_nil_or_concat' front with rfl | ⟨rest, high, rfl⟩
    · rfl
    · have hdrop : InputState.dropLastChar (rest ++ [high] ++ [low]) =
          if 0xD800 ≤ high ∧ high < 0xDC00 ∧ 0xDC00 ≤ low ∧ low < 0xE000 then
            rest else rest ++ [high] := by
        rw [InputState.dropLastChar]
        simp
      rw [hdrop]
      split
      · next hpair =>
          rw [endsInQuotes_concat, ne_quote_of_le hpair.1, Bool.xor_false]
      · rfl

theorem endsInQuotes_joinArgs {args : List JsString}
    (h : ∀ a ∈ args, quote ∉ a) (x : JsString) :
    endsInQuotes (joinArgs (args ++ [x])) = endsInQuotes x := by
  induction args with
  | nil => rw [joinArgs, List.nil_append, List.intercalate_singleton]
  | cons a args ih =>
      rw [List.forall_mem_cons] at h
      have hblank : quote ∉ a ++ [space] := by
        rw [List.mem_append, not_or]
        exact ⟨h.1, by decide⟩
      rw [joinArgs_cons, endsInQuotes_append, ih h.2,
        endsInQuotes_of_not_mem hblank]
      exact Bool.false_xor _

theorem endsInQuotes_split (text : JsString) (caret : Nat) :
    endsInQuotes text =
      (endsInQuotes (text.take caret) ^^ endsInQuotes (text.drop caret)) := by
  rw [← endsInQuotes_append, List.take_append_drop]

/-- What is put in at the caret. -/
theorem endsInQuotes_insert (text new : JsString) (caret : Nat) :
    endsInQuotes (text.take caret ++ new ++ text.drop caret) =
      (endsInQuotes text ^^ endsInQuotes new) := by
  rw [endsInQuotes_append, endsInQuotes_append, endsInQuotes_split text caret,
    Bool.xor_assoc, Bool.xor_assoc, Bool.xor_comm (endsInQuotes new)]

/-- What goes in front of the caret. -/
theorem endsInQuotes_delete (text : JsString) (caret : Nat) :
    endsInQuotes (InputState.dropLastChar (text.take caret) ++
        text.drop caret) =
      (endsInQuotes text ^^ ((text.take caret).getLast? == some quote)) := by
  rw [endsInQuotes_append, endsInQuotes_dropLastChar,
    endsInQuotes_split text caret, Bool.xor_assoc, Bool.xor_assoc,
    Bool.xor_comm ((text.take caret).getLast? == some quote)]

/-! ## One key -/

/-- There is nothing that a rendering would change. -/
def InputState.Rendered (s : InputState) : Prop :=
  ¬ (s.explorer.command = [quote] ∧ s.cached = none)

/-- What is kept is right, the tabs that wait were pressed behind closed
quotes, and what is to be rendered is. -/
structure Kept (s : InputState) : Prop where
  synced : s.Synced
  pending : ∀ command ∈ s.pending, endsInQuotes command = false
  rendered : s.Rendered

namespace InputState

variable {s : InputState}

theorem press_char (s : InputState) (c : Char) (caret : Nat) :
    s.press (.char c) caret =
      (s.turnAt (.char c)).defaultAction (.char c) caret := by
  unfold press handleOnKeyDown
  cases s.inQuotes with
  | true => rfl
  | false => rfl

theorem press_backspace (s : InputState) (caret : Nat) :
    s.press .backspace caret =
      (s.onBackspace (!s.inQuotes)).defaultAction .backspace caret := by
  unfold press handleOnKeyDown
  cases s.inQuotes with
  | true => rfl
  | false => rfl

theorem press_tab (s : InputState) (caret : Nat) :
    s.press .tab caret =
      if s.inQuotes then { s with text := s.text ++ [space, space] }
      else { s with pending := s.pending ++ [s.text] } := by
  unfold press handleOnKeyDown
  cases s.inQuotes with
  | true => rfl
  | false => rfl

theorem press_enter (s : InputState) (caret : Nat) :
    s.press .enter caret =
      if s.inQuotes then s.defaultAction .enter caret
      else s.onEnterPress s.text := by
  unfold press handleOnKeyDown
  cases s.inQuotes with
  | true => rfl
  | false => rfl

/-- Behind closed quotes there is no command that is a quote alone. -/
theorem onEnterPress_eq (h : s.Synced) (hclosed : s.inQuotes = false) :
    s.onEnterPress s.text =
      { s with
        explorer := { s.explorer with command := s.text }
        submitted := s.submitted ++ [s.text] } := by
  rw [onEnterPress, render, if_neg]
  rintro ⟨hquote, _⟩
  rw [Synced, hclosed, show s.text = [quote] from hquote,
    endsInQuotes_singleton] at h
  cases h

theorem synced_press_char (h : s.Synced) (c : Char) (caret : Nat) :
    (s.press (.char c) caret).Synced := by
  rw [press_char, turnAt]
  by_cases hc : c = '`'
  · subst hc
    show (!s.inQuotes) =
      endsInQuotes (s.text.take caret ++ [quote] ++ s.text.drop caret)
    rw [endsInQuotes_insert, endsInQuotes_singleton, h]
    exact (Bool.xor_true _).symm
  · rw [if_neg fun hkey : Key.char c = quoteKey => hc (Key.char.inj hkey)]
    show s.inQuotes =
      endsInQuotes (s.text.take caret ++ utf16Encode c ++ s.text.drop caret)
    rw [endsInQuotes_insert,
      endsInQuotes_of_not_mem (quote_not_mem_utf16Encode hc), h,
      Bool.xor_false]

/-- A backspace looks at the last letter, and takes another. -/
theorem synced_press_backspace (h : s.Synced) (caret : Nat) :
    (s.press .backspace caret).Synced ↔
      ((s.text.take caret).getLast? = some quote ↔
        s.text.getLast? = some quote) := by
  rw [press_backspace, onBackspace]
  by_cases hlast : s.text.getLast? = some quote
  · rw [if_pos hlast, iff_true_right hlast]
    show (!s.inQuotes) = endsInQuotes (dropLastChar (s.text.take caret) ++
      s.text.drop caret) ↔ _
    rw [endsInQuotes_delete, h, ← Bool.xor_true, Bool.xor_right_inj, eq_comm,
      beq_iff_eq]
  · rw [if_neg hlast, iff_false_right hlast]
    show s.inQuotes = endsInQuotes (dropLastChar (s.text.take caret) ++
      s.text.drop caret) ↔ _
    rw [endsInQuotes_delete, h]
    by_cases hbefore : (s.text.take caret).getLast? = some quote
    · simp [hbefore]
    · rw [beq_eq_false_iff_ne.2 hbefore, Bool.xor_false]
      exact iff_of_true rfl hbefore

theorem synced_press_tab (h : s.Synced) (caret : Nat) :
    (s.press .tab caret).Synced := by
  rw [press_tab]
  split
  · show s.inQuotes = endsInQuotes (s.text ++ [space, space])
    have hblanks : endsInQuotes [space, space] = false := by decide
    rw [endsInQuotes_append, hblanks, h, Bool.xor_false]
  · exact h

theorem synced_press_enter (h : s.Synced) (caret : Nat) :
    (s.press .enter caret).Synced := by
  rw [press_enter]
  split
  · show s.inQuotes =
      endsInQuotes (s.text.take caret ++ [unit '\n'] ++ s.text.drop caret)
    have hline : endsInQuotes [unit '\n'] = false := by decide
    rw [endsInQuotes_insert, hline, h, Bool.xor_false]
  · next hopen =>
      rw [onEnterPress_eq h (Bool.eq_false_iff.2 hopen)]
      exact h

/-- `Enter` submits the text if its quotes are closed. -/
theorem submitted_press_enter (h : s.Synced) (caret : Nat) :
    (s.press .enter caret).submitted =
      if endsInQuotes s.text then s.submitted
      else s.submitted ++ [s.text] := by
  rw [press_enter, ← h]
  split
  · rfl
  · next hopen => rw [onEnterPress_eq h (Bool.eq_false_iff.2 hopen)]

/-! ## An answer -/

theorem onTabPressed_command (toLowerCase : JsString → JsString)
    (getHelp : List JsString → Option (List JsString)) (state : ExplorerState)
    (command : JsString) :
    (onTabPressed toLowerCase getHelp state command).1.command =
      match suggestionsOf toLowerCase getHelp command with
      | [x] => joinArgs (completeCmdArgs command ++ [x])
      | _ => state.command := by
  rw [onTabPressed_eq]
  cases suggestionsOf toLowerCase getHelp command with
  | nil => rfl
  | cons x rest =>
      cases rest with
      | nil => rfl
      | cons y rest => rfl

theorem rendered_render (s : InputState) : s.render.Rendered := by
  rw [Rendered, render]
  split
  · rintro ⟨_, hnone⟩
    cases hnone
  · next h => exact h

theorem render_pending (s : InputState) : s.render.pending = s.pending := by
  rw [render]
  split
  · rfl
  · rfl

/-- A single suggestion is rendered as the command. -/
theorem synced_single {command x : JsString} {explorer : ExplorerState}
    {pending : List JsString} (h : ∀ a ∈ completeCmdArgs command, quote ∉ a)
    (hcommand : explorer.command = joinArgs (completeCmdArgs command ++ [x])) :
    (render { s with
        text := joinArgs (completeCmdArgs command ++ [x])
        explorer
        pending }).Synced ↔
      s.inQuotes = endsInQuotes x ∨
        joinArgs (completeCmdArgs command ++ [x]) = [quote] ∧
          s.cached = none := by
  have hends := endsInQuotes_joinArgs h x
  rw [render, hcommand]
  split
  · next hquote =>
      refine iff_of_true ?_ (.inr hquote)
      show true = endsInQuotes (joinArgs (completeCmdArgs command ++ [x]))
      rw [hquote.1, endsInQuotes_singleton]
      rfl
  · next hquote =>
      rw [or_iff_left hquote, ← hends]
      rfl

theorem synced_answer (toLowerCase : JsString → JsString) (h : Kept s)
    (i : Nat) (cmdlist : Option (List JsString)) :
    (s.answer toLowerCase i cmdlist).Synced ↔
      StepOk toLowerCase s (.answer i cmdlist) := by
  rw [answer, StepOk]
  cases hi : s.pending[i]? with
  | none => exact iff_of_true h.synced fun _ hc => by cases hc
  | some command =>
      have hclosed := h.pending command (List.mem_of_getElem? hi)
      have hclean := clean_completeCmdArgs command
      simp only [Option.some.injEq, forall_eq']
      have htext := onTabPressed_snd toLowerCase (fun _ => cmdlist) s.explorer
        command
      have hcommand := onTabPressed_command toLowerCase (fun _ => cmdlist)
        s.explorer command
      revert htext hcommand
      generalize onTabPressed toLowerCase (fun _ => cmdlist) s.explorer
        command = after
      obtain ⟨explorer, text⟩ := after
      intro htext hcommand
      simp only at htext hcommand
      subst htext
      have hunchanged : explorer.command = s.explorer.command →
          ((render { s with
              text := command
              explorer
              pending := s.pending.eraseIdx i }).Synced ↔
            s.inQuotes = false) := by
        intro hsame
        rw [render, if_neg fun hquote => h.rendered (hsame ▸ hquote)]
        show s.inQuotes = endsInQuotes command ↔ _
        rw [hclosed]
      revert hcommand
      cases suggestionsOf toLowerCase (fun _ => cmdlist) command with
      | nil => exact hunchanged
      | cons x rest =>
          cases rest with
          | nil => exact synced_single fun a ha => (hclean a ha).2
          | cons y rest => exact hunchanged

/-! ## Every run -/

theorem rendered_setCached (s : InputState) (q : Bool) :
    (s.setCached q).Rendered := by
  rintro ⟨_, hnone⟩
  cases hnone

/-- The text, and the tabs that wait, do not count for what is rendered. -/
theorem rendered_congr {t : InputState} (h : s.Rendered)
    (hexplorer : t.explorer = s.explorer) (hcached : t.cached = s.cached) :
    t.Rendered := by
  rw [Rendered, hexplorer, hcached]
  exact h

theorem defaultAction_explorer (s : InputState) (key : Key) (caret : Nat) :
    (s.defaultAction key caret).explorer = s.explorer := by
  cases key <;> rfl

theorem defaultAction_cached (s : InputState) (key : Key) (caret : Nat) :
    (s.defaultAction key caret).cached = s.cached := by
  cases key <;> rfl

theorem defaultAction_pending (s : InputState) (key : Key) (caret : Nat) :
    (s.defaultAction key caret).pending = s.pending := by
  cases key <;> rfl

theorem rendered_defaultAction (h : s.Rendered) (key : Key) (caret : Nat) :
    (s.defaultAction key caret).Rendered :=
  rendered_congr h (defaultAction_explorer s key caret)
    (defaultAction_cached s key caret)

theorem rendered_press (h : s.Rendered) (key : Key) (caret : Nat) :
    (s.press key caret).Rendered := by
  cases key with
  | char c =>
      rw [press_char, turnAt]
      refine rendered_defaultAction ?_ _ caret
      split
      · exact rendered_setCached s _
      · exact h
  | backspace =>
      rw [press_backspace, onBackspace]
      refine rendered_defaultAction ?_ _ caret
      split
      · exact rendered_setCached s _
      · exact h
  | tab =>
      rw [press_tab]
      split
      · exact rendered_congr h rfl rfl
      · exact rendered_congr h rfl rfl
  | enter =>
      rw [press_enter]
      split
      · exact rendered_defaultAction h _ caret
      · exact rendered_render _

/-- A tab waits only if it is pressed behind closed quotes. -/
theorem pending_press (h : Kept s) (key : Key) (caret : Nat) :
    ∀ command ∈ (s.press key caret).pending,
      endsInQuotes command = false := by
  cases key with
  | char c =>
      rw [press_char, turnAt, defaultAction_pending]
      split
      · exact h.pending
      · exact h.pending
  | backspace =>
      rw [press_backspace, onBackspace, defaultAction_pending]
      split
      · exact h.pending
      · exact h.pending
  | tab =>
      rw [press_tab]
      split
      · exact h.pending
      · next hclosed =>
          intro command hmem
          rcases List.mem_append.1 hmem with hmem | hmem
          · exact h.pending command hmem
          · rw [List.mem_singleton.1 hmem, ← h.synced]
            exact Bool.eq_false_iff.2 hclosed
  | enter =>
      rw [press_enter]
      split
      · rw [defaultAction_pending]
        exact h.pending
      · rw [onEnterPress, render_pending]
        exact h.pending

theorem kept_press (h : Kept s) {key : Key} {caret : Nat}
    (hsynced : (s.press key caret).Synced) : Kept (s.press key caret) :=
  ⟨hsynced, pending_press h key caret, rendered_press h.rendered key caret⟩

theorem kept_answer {toLowerCase : JsString → JsString} (h : Kept s) {i : Nat}
    {cmdlist : Option (List JsString)}
    (hsynced : (s.answer toLowerCase i cmdlist).Synced) :
    Kept (s.answer toLowerCase i cmdlist) := by
  refine ⟨hsynced, ?_, ?_⟩
  · rw [answer]
    split
    · exact h.pending
    · simp only [render_pending]
      intro command hmem
      exact h.pending command (List.mem_of_mem_eraseIdx hmem)
  · rw [answer]
    split
    · exact h.rendered
    · exact rendered_render _

variable (toLowerCase : JsString → JsString)

/-- What one step keeps. -/
theorem kept_step (h : Kept s) {event : InputEvent}
    (hsynced : (s.step toLowerCase event).Synced) :
    Kept (s.step toLowerCase event) := by
  cases event with
  | press key caret => exact kept_press h hsynced
  | answer i cmdlist => exact kept_answer h hsynced

theorem synced_step (h : Kept s) (event : InputEvent) :
    (s.step toLowerCase event).Synced ↔ StepOk toLowerCase s event := by
  cases event with
  | answer i cmdlist => exact synced_answer toLowerCase h i cmdlist
  | press key caret =>
      cases key with
      | char c => exact iff_of_true (synced_press_char h.synced c caret) trivial
      | backspace => exact synced_press_backspace h.synced caret
      | tab => exact iff_of_true (synced_press_tab h.synced caret) trivial
      | enter => exact iff_of_true (synced_press_enter h.synced caret) trivial

end InputState

theorem Kept.start : Kept .start where
  synced := rfl
  pending := fun _ h => (List.not_mem_nil h).elim
  rendered := by
    rintro ⟨h, _⟩
    cases h

section

variable {toLowerCase : JsString → JsString}

theorem inputAfter_concat (done : List InputEvent) (event : InputEvent) :
    inputAfter toLowerCase (done ++ [event]) =
      (inputAfter toLowerCase done).step toLowerCase event := by
  rw [inputAfter, List.foldl_append]
  rfl

/-- The invariant holds as long as what is kept is right. -/
theorem kept_of_synced (done : List InputEvent)
    (h : ∀ before rest, done = before ++ rest →
      (inputAfter toLowerCase before).Synced) :
    Kept (inputAfter toLowerCase done) := by
  induction done using List.reverseRecOn with
  | nil => exact Kept.start
  | append_singleton done event ih =>
      have hdone : Kept (inputAfter toLowerCase done) := by
        refine ih fun before rest hsplit => h before (rest ++ [event]) ?_
        rw [hsplit, List.append_assoc]
      have hsynced := h (done ++ [event]) [] (List.append_nil _).symm
      rw [inputAfter_concat] at hsynced ⊢
      exact InputState.kept_step toLowerCase hdone hsynced

/-- It holds as long as the steps go well. -/
theorem kept_of_steps (done : List InputEvent)
    (h : ∀ before event rest, done = before ++ event :: rest →
      StepOk toLowerCase (inputAfter toLowerCase before) event) :
    Kept (inputAfter toLowerCase done) := by
  induction done using List.reverseRecOn with
  | nil => exact Kept.start
  | append_singleton done event ih =>
      have hdone : Kept (inputAfter toLowerCase done) := by
        refine ih fun before e rest hsplit =>
          h before e (rest ++ [event]) ?_
        rw [hsplit, List.append_assoc, List.cons_append]
      have hok := h done event [] rfl
      rw [inputAfter_concat]
      exact InputState.kept_step toLowerCase hdone
        ((InputState.synced_step toLowerCase hdone event).2 hok)

end

/-- The input stays right over a run exactly if each of its steps goes well. -/
theorem inStep_iff (toLowerCase : JsString → JsString)
    (events : List InputEvent) :
    InStep toLowerCase events ↔
      ∀ done event rest, events = done ++ event :: rest →
        StepOk toLowerCase (inputAfter toLowerCase done) event := by
  constructor
  · intro h done event rest hsplit
    have hdone : Kept (inputAfter toLowerCase done) := by
      refine kept_of_synced done fun before between hbefore =>
        h.synced before (between ++ event :: rest) ?_
      rw [hsplit, hbefore, List.append_assoc]
    have hnext : events = done ++ [event] ++ rest := by
      rw [hsplit, List.append_assoc, List.singleton_append]
    have hsynced := h.synced (done ++ [event]) rest hnext
    rw [inputAfter_concat] at hsynced
    exact (InputState.synced_step toLowerCase hdone event).1 hsynced
  · intro h
    have hkept : ∀ done rest, events = done ++ rest →
        Kept (inputAfter toLowerCase done) := by
      intro done rest hsplit
      refine kept_of_steps done fun before event between hbefore =>
        h before event (between ++ rest) ?_
      rw [hsplit, hbefore, List.append_assoc, List.cons_append]
    exact
      { synced := fun done rest hsplit => (hkept done rest hsplit).synced
        enter := fun done caret rest hsplit =>
          InputState.submitted_press_enter (hkept done _ hsplit).synced caret }

/-- The quote goes, and the last letter is none. -/
theorem not_inStep :
    ¬ ∀ (toLowerCase : JsString → JsString) (events : List InputEvent),
      InStep toLowerCase events := by
  intro h
  have hsynced := (h id [.press (.char '`') 0, .press (.char 'a') 1,
    .press .backspace 1]).synced _ [] (List.append_nil _).symm
  have hflag : (inputAfter id [.press (.char '`') 0, .press (.char 'a') 1,
    .press .backspace 1]).inQuotes = true := by decide
  have htext : (inputAfter id [.press (.char '`') 0, .press (.char 'a') 1,
    .press .backspace 1]).text = js "a" := by decide
  rw [InputState.Synced, hflag, htext] at hsynced
  exact absurd hsynced (by decide)

end IotHome.Cmd
