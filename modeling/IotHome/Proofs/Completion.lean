import IotHome.Proofs.CommandLine

/-!
# What a tab does to the arguments

A completion puts the arguments together again with a blank between each two,
without quotes. Reading the text back gives the words of each complete
argument (`parseCommand_joinArgs`), which is the argument itself if it has no
blank, and then what the suggestion reads as. `keeps_iff` says when this
leaves the complete arguments as they were.
-/

namespace IotHome.Cmd

open IotHome.Lib

/-- The scan from a word that is done, in front of which `args` were pushed. -/
theorem read_args (args more : List JsString) (word : JsString) (q : Bool)
    (u : UInt16) :
    (⟨args ++ more, word, q⟩ : Scan).read u =
      { (⟨more, word, q⟩ : Scan).read u with
        args := args ++ ((⟨more, word, q⟩ : Scan).read u).args } := by
  rw [Scan.read, Scan.read]
  split
  · rw [Scan.flush, Scan.flush]
    split
    · rfl
    · simp
  · split
    · cases q with
      | false => rfl
      | true =>
          rw [if_pos rfl, if_pos rfl, Scan.flush, Scan.flush]
          split
          · rfl
          · simp
    · rfl

/-- What was pushed before stays in front. -/
theorem scan_args (args : List JsString) (text : JsString) (s : Scan) :
    ({ s with args := args ++ s.args } : Scan).scan text =
      { s.scan text with args := args ++ (s.scan text).args } := by
  induction text generalizing s with
  | nil => rfl
  | cons u text ih =>
      rw [scan_cons, scan_cons, read_args, ih]

theorem parseCommand_eq (command : JsString) :
    parseCommand command = (Scan.init.scan command).args ++
      [(Scan.init.scan command).word] := rfl

/-! ## What is read has no quotes -/

/-- The arguments are not empty, and there is no quote in them. -/
structure Scan.Clean (s : Scan) : Prop where
  args : ∀ a ∈ s.args, a ≠ [] ∧ quote ∉ a
  word : quote ∉ s.word

theorem Scan.Clean.flush {s : Scan} (h : s.Clean) : s.flush.Clean := by
  rw [Scan.flush]
  split
  · exact h
  · next hne =>
      refine ⟨fun a ha => ?_, List.not_mem_nil⟩
      rcases List.mem_append.1 ha with ha | ha
      · exact h.args a ha
      · obtain rfl := List.mem_singleton.1 ha
        exact ⟨hne, h.word⟩

theorem Scan.Clean.read {s : Scan} (h : s.Clean) (u : UInt16) :
    (s.read u).Clean := by
  rw [Scan.read]
  split
  · exact h.flush
  · split
    · split
      · exact ⟨h.flush.args, h.flush.word⟩
      · exact ⟨h.args, h.word⟩
    · next hu =>
        refine ⟨h.args, fun hmem => ?_⟩
        rcases List.mem_append.1 hmem with hmem | hmem
        · exact h.word hmem
        · exact hu (List.mem_singleton.1 hmem).symm

theorem scan_clean (text : JsString) {s : Scan} (h : s.Clean) :
    (s.scan text).Clean := by
  induction text generalizing s with
  | nil => exact h
  | cons u text ih => exact ih (h.read u)

theorem clean_completeCmdArgs (command : JsString) :
    ∀ a ∈ completeCmdArgs command, a ≠ [] ∧ quote ∉ a := by
  rw [completeCmdArgs, parseCommand_eq, List.dropLast_concat]
  exact (scan_clean command ⟨fun _ ha => (List.not_mem_nil ha).elim,
    List.not_mem_nil⟩).args

/-! ## The words of an argument -/

/-- What an argument is read as where it stands bare, with a blank behind
it. -/
def wordsOf (arg : JsString) : List JsString :=
  (Scan.init.scan (arg ++ [space])).args

/-- Outside of quotes: the words have no blank, and there is one as soon as
there was a unit that is none. -/
structure Scan.Bare (s : Scan) : Prop where
  out : s.inQuotes = false
  args : ∀ a ∈ s.args, space ∉ a
  word : space ∉ s.word

theorem Scan.Bare.read {s : Scan} (h : s.Bare) {u : UInt16} (hu : u ≠ quote) :
    (s.read u).Bare := by
  obtain ⟨args, word, q⟩ := s
  obtain rfl : q = false := h.out
  by_cases hspace : u = space
  · subst hspace
    by_cases hword : word = []
    · subst hword
      rw [read_space_nil]
      exact h
    · rw [read_space args hword]
      refine ⟨rfl, fun a ha => ?_, List.not_mem_nil⟩
      rcases List.mem_append.1 ha with ha | ha
      · exact h.args a ha
      · obtain rfl := List.mem_singleton.1 ha
        exact h.word
  · rw [read_plain args word hu fun _ => hspace]
    refine ⟨rfl, h.args, fun hmem => ?_⟩
    rcases List.mem_append.1 hmem with hmem | hmem
    · exact h.word hmem
    · exact hspace (List.mem_singleton.1 hmem).symm

theorem scan_bare {text : JsString} (htext : quote ∉ text) {s : Scan}
    (h : s.Bare) : (s.scan text).Bare := by
  induction text generalizing s with
  | nil => exact h
  | cons u text ih =>
      rw [List.mem_cons, not_or] at htext
      exact ih htext.2 (h.read (Ne.symm htext.1))

theorem bare_init : Scan.init.Bare :=
  ⟨rfl, fun _ ha => (List.not_mem_nil ha).elim, List.not_mem_nil⟩

theorem space_notMem_wordsOf {arg : JsString} (h : quote ∉ arg) :
    ∀ w ∈ wordsOf arg, space ∉ w := by
  have htext : quote ∉ arg ++ [space] := by
    rw [List.mem_append, List.mem_singleton, not_or]
    exact ⟨h, quote_ne_space⟩
  exact (scan_bare htext bare_init).args

/-- A blank ends the word. -/
theorem scan_space {arg : JsString} (h : quote ∉ arg) :
    Scan.init.scan (arg ++ [space]) = ⟨wordsOf arg, [], false⟩ := by
  have hbare := scan_bare h bare_init
  rw [wordsOf, scan_append]
  generalize Scan.init.scan arg = s at hbare ⊢
  obtain ⟨args, word, q⟩ := s
  obtain rfl : q = false := hbare.out
  show (⟨args, word, false⟩ : Scan).read space =
    ⟨((⟨args, word, false⟩ : Scan).read space).args, [], false⟩
  by_cases hword : word = []
  · subst hword
    rw [read_space_nil]
  · rw [read_space args hword]

theorem wordsOf_plain {arg : JsString} (hne : arg ≠ []) (hquote : quote ∉ arg)
    (hspace : space ∉ arg) : wordsOf arg = [arg] := by
  rw [wordsOf, scan_append, Scan.init, scan_plain [] [] hquote fun _ => hspace,
    List.nil_append, scan_cons, read_space [] hne]
  rfl

/-- Only blanks have no words. -/
theorem wordsOf_eq_nil_iff {arg : JsString} (h : quote ∉ arg) :
    wordsOf arg = [] ↔ ∀ u ∈ arg, u = space := by
  have hempty : ∀ (text : JsString) (args : List JsString) (word : JsString),
      quote ∉ text →
      ((⟨args, word, false⟩ : Scan).scan (text ++ [space])).args = [] →
      args = [] ∧ word = [] ∧ ∀ u ∈ text, u = space := by
    intro text
    induction text with
    | nil =>
        intro args word _ hnil
        change ((⟨args, word, false⟩ : Scan).read space).args = [] at hnil
        by_cases hword : word = []
        · subst hword
          rw [read_space_nil] at hnil
          exact ⟨hnil, rfl, fun _ hu => (List.not_mem_nil hu).elim⟩
        · rw [read_space args hword] at hnil
          simp at hnil
    | cons u text ih =>
        intro args word hquote hnil
        rw [List.mem_cons, not_or] at hquote
        rw [List.cons_append, scan_cons] at hnil
        by_cases hspace : u = space
        · subst hspace
          by_cases hword : word = []
          · subst hword
            rw [read_space_nil] at hnil
            obtain ⟨hargs, _, hrest⟩ := ih args [] hquote.2 hnil
            exact ⟨hargs, rfl, List.forall_mem_cons.2 ⟨rfl, hrest⟩⟩
          · rw [read_space args hword] at hnil
            obtain ⟨hargs, _⟩ := ih _ _ hquote.2 hnil
            simp at hargs
        · rw [read_plain args word (Ne.symm hquote.1) fun _ => hspace] at hnil
          obtain ⟨_, hword, _⟩ := ih _ _ hquote.2 hnil
          simp at hword
  refine ⟨fun hnil => (hempty arg [] [] h hnil).2.2, fun hall => ?_⟩
  rw [wordsOf, List.eq_replicate_of_mem hall, ← List.replicate_succ', Scan.init,
    scan_spaces]

/-! ## The arguments put together -/

theorem joinArgs_cons (a : JsString) (args : List JsString) (last : JsString) :
    joinArgs (a :: args ++ [last]) =
      (a ++ [space]) ++ joinArgs (args ++ [last]) := by
  have hne : args ++ [last] ≠ [] := by simp
  rw [joinArgs, List.cons_append, List.intercalate_cons_of_ne_nil hne]
  rfl

theorem parseCommand_joinArgs {complete : List JsString}
    (h : ∀ a ∈ complete, quote ∉ a) (last : JsString) :
    parseCommand (joinArgs (complete ++ [last])) =
      complete.flatMap wordsOf ++ parseCommand last := by
  have hscan : ∀ args : List JsString,
      (⟨args, [], false⟩ : Scan).scan (joinArgs (complete ++ [last])) =
        { Scan.init.scan last with
          args := args ++ (complete.flatMap wordsOf ++
            (Scan.init.scan last).args) } := by
    induction complete with
    | nil =>
        intro args
        have hlast := scan_args args last Scan.init
        rw [Scan.init, List.append_nil] at hlast
        rw [joinArgs, List.nil_append, List.intercalate_singleton, hlast]
        rfl
    | cons a complete ih =>
        intro args
        have ha := scan_args args (a ++ [space]) Scan.init
        rw [scan_space (h a List.mem_cons_self), Scan.init,
          List.append_nil] at ha
        rw [joinArgs_cons, scan_append, ha,
          ih (fun b hb => h b (List.mem_cons_of_mem a hb)),
          List.flatMap_cons]
        simp only [List.append_assoc]
  have hrun := hscan []
  rw [parseCommand_eq, parseCommand_eq, Scan.init, hrun]
  simp only [List.nil_append, List.append_assoc]
  rfl

/-- The arguments with no blank are their own words. -/
theorem flatMap_wordsOf_plain {args : List JsString}
    (h : ∀ a ∈ args, a ≠ [] ∧ quote ∉ a) (hspace : ∀ a ∈ args, space ∉ a) :
    args.flatMap wordsOf = args := by
  induction args with
  | nil => rfl
  | cons a args ih =>
      have ha := h a List.mem_cons_self
      rw [List.flatMap_cons,
        wordsOf_plain ha.1 ha.2 (hspace a List.mem_cons_self),
        ih (fun b hb => h b (List.mem_cons_of_mem a hb))
          (fun b hb => hspace b (List.mem_cons_of_mem a hb))]
      rfl

/-- What the arguments and the last text are read as, against what they
should be: arguments without blanks do not matter, and behind the first one
with a blank there are blanks only, and the last text gives them back. -/
def ReadsAsLast (complete : List JsString) (last x : JsString) : Prop :=
  ∃ plain blank, complete = plain ++ blank ∧ (∀ a ∈ plain, space ∉ a) ∧
    (∀ a ∈ blank, ∀ u ∈ a, u = space) ∧ parseCommand last = blank ++ [x]

/-- The words begin with no argument that has a blank. -/
theorem flatMap_wordsOf_eq_nil {a : JsString} {args rest more : List JsString}
    (h : ∀ b ∈ args, quote ∉ b) (hspace : space ∈ a)
    (heq : args.flatMap wordsOf ++ rest = a :: more) :
    args.flatMap wordsOf = [] := by
  cases hwords : args.flatMap wordsOf with
  | nil => rfl
  | cons w words =>
      rw [hwords, List.cons_append, List.cons.injEq] at heq
      obtain ⟨b, hb, hw⟩ := List.mem_flatMap.1 (hwords ▸ List.mem_cons_self)
      rw [heq.1] at hw
      exact absurd hspace (space_notMem_wordsOf (h b hb) a hw)

theorem readsAsLast_of_eq {complete : List JsString} {last x : JsString}
    (h : ∀ a ∈ complete, a ≠ [] ∧ quote ∉ a)
    (heq : complete.flatMap wordsOf ++ parseCommand last = complete ++ [x]) :
    ReadsAsLast complete last x := by
  induction complete with
  | nil =>
      exact ⟨[], [], rfl, List.forall_mem_nil _, List.forall_mem_nil _, heq⟩
  | cons a complete ih =>
      have ha := h a List.mem_cons_self
      by_cases hspace : space ∈ a
      · -- All that is left has no words.
        have hquote := fun b hb => (h b hb).2
        have hnil := flatMap_wordsOf_eq_nil hquote hspace heq
        refine ⟨[], a :: complete, rfl, List.forall_mem_nil _,
          fun b hb => ?_, ?_⟩
        · rw [← wordsOf_eq_nil_iff (hquote b hb)]
          exact List.flatMap_eq_nil_iff.1 hnil b hb
        · rwa [hnil, List.nil_append] at heq
      · rw [List.flatMap_cons, wordsOf_plain ha.1 ha.2 hspace,
          List.append_assoc, List.singleton_append, List.cons_append,
          List.cons.injEq] at heq
        obtain ⟨plain, blank, rfl, hplain, hblank, hlast⟩ :=
          ih (fun b hb => h b (List.mem_cons_of_mem a hb)) heq.2
        exact ⟨a :: plain, blank, rfl,
          List.forall_mem_cons.2 ⟨hspace, hplain⟩, hblank, hlast⟩

theorem reads_iff {complete : List JsString}
    (h : ∀ a ∈ complete, a ≠ [] ∧ quote ∉ a) (last x : JsString) :
    complete.flatMap wordsOf ++ parseCommand last = complete ++ [x] ↔
      ReadsAsLast complete last x := by
  refine ⟨readsAsLast_of_eq h, fun hreads => ?_⟩
  obtain ⟨plain, blank, rfl, hplain, hblank, hlast⟩ := hreads
  have hnil : blank.flatMap wordsOf = [] := by
    refine List.flatMap_eq_nil_iff.2 fun a ha => ?_
    rw [wordsOf_eq_nil_iff (h a (List.mem_append_right plain ha)).2]
    exact hblank a ha
  rw [List.flatMap_append, hnil, List.append_nil, hlast,
    flatMap_wordsOf_plain (fun a ha => h a (List.mem_append_left blank ha))
      hplain, List.append_assoc]

/-! ## After a tab -/

/-- The text is the command as it was, or reads as its complete arguments and
one of the candidates. -/
def Keeps (cmdlist : Option (List JsString)) (command text : JsString) :
    Prop :=
  text = command ∨ ∃ x ∈ cmdlist.getD [],
    parseCommand text = completeCmdArgs command ++ [x]

section

variable (toLowerCase : JsString → JsString)
  (getHelp : List JsString → Option (List JsString)) (state : ExplorerState)
  (command : JsString)

/-- The candidates the server has, and what is left of them. -/
def cmdlistOf : Option (List JsString) := getHelp (completeCmdArgs command)

def suggestionsOf : List JsString :=
  getSuggestions toLowerCase ((cmdlistOf getHelp command).getD [])
    (lastPartialArg command)

/-- Only a single suggestion is put into the text. -/
def textFor (command : JsString) : List JsString → JsString
  | [suggestion] => joinArgs (completeCmdArgs command ++ [suggestion])
  | _ => command

/-- A single suggestion becomes the command, and the text. -/
theorem onTabPressed_eq :
    onTabPressed toLowerCase getHelp state command =
      match suggestionsOf toLowerCase getHelp command with
      | [] =>
          ({ state with suggestions := [], tabPressed := state.tabPressed + 1 },
            command)
      | [x] =>
          (⟨[], joinArgs (completeCmdArgs command ++ [x]),
            state.tabPressed + 1⟩, joinArgs (completeCmdArgs command ++ [x]))
      | suggestions =>
          ({ state with suggestions, tabPressed := state.tabPressed + 1 },
            command) :=
  rfl

theorem onTabPressed_snd :
    (onTabPressed toLowerCase getHelp state command).2 =
      textFor command (suggestionsOf toLowerCase getHelp command) := by
  rw [onTabPressed_eq]
  cases suggestionsOf toLowerCase getHelp command with
  | nil => rfl
  | cons s rest => cases rest <;> rfl

/-- A tab keeps what was typed exactly when there is no single suggestion, or
it changes nothing, or the suggestion reads as a candidate and no complete
argument has a blank (or, if some do, they are nothing but blanks, come last,
and the suggestion begins with the same again). -/
theorem keeps_iff :
    Keeps (cmdlistOf getHelp command) command
        (onTabPressed toLowerCase getHelp state command).2 ↔
      ∀ suggestion,
        suggestionsOf toLowerCase getHelp command = [suggestion] →
        joinArgs (completeCmdArgs command ++ [suggestion]) = command ∨
          ∃ x ∈ (cmdlistOf getHelp command).getD [],
            ReadsAsLast (completeCmdArgs command) suggestion x := by
  have hclean := clean_completeCmdArgs command
  rw [onTabPressed_snd]
  cases suggestionsOf toLowerCase getHelp command with
  | nil => exact iff_of_true (.inl rfl) fun s hs => by cases hs
  | cons suggestion rest =>
      cases rest with
      | nil =>
          rw [textFor, Keeps,
            parseCommand_joinArgs (fun a ha => (hclean a ha).2) suggestion]
          simp only [reads_iff hclean, List.cons.injEq, and_true, forall_eq']
      | cons second rest =>
          exact iff_of_true (.inl rfl) fun s hs => by cases hs

end

/-- The typed argument `a b` comes back as two. -/
theorem not_keeps_quoted :
    ∃ (toLowerCase : JsString → JsString)
      (getHelp : List JsString → Option (List JsString)) (state : ExplorerState)
      (command : JsString),
      ¬ Keeps (cmdlistOf getHelp command) command
        (onTabPressed toLowerCase getHelp state command).2 := by
  refine ⟨id, fun _ => some [js "cat"], ⟨[], [], 0⟩, js "`a b` c", ?_⟩
  have htext : (onTabPressed id (fun _ => some [js "cat"]) ⟨[], [], 0⟩
      (js "`a b` c")).2 = js "a b cat" := by decide
  rw [htext]
  intro h
  rcases h with h | ⟨x, hx, hparse⟩
  · exact absurd h (by decide)
  · have hcat : x = js "cat" := List.mem_singleton.1 hx
    rw [hcat] at hparse
    exact absurd hparse (by decide)

end IotHome.Cmd
