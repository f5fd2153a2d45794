import IotHome.Firmware.Commands

/-!
# Whose parameters a request is answered from

The arrays a request is handed are longer than its parameter count, and what
stands behind the count was left there by older requests. A handler that
keeps to its own parameters does the same thing whatever that is. This one
looks one name ahead, bounded by the ten entries it looks at and not by the
count, so a request whose last parameter is a `pin` has its value decided by
whoever came before it.

A request that C leaves undefined is no better: nothing is known of what the
handler does then. `OwnAt` says of a parameter that the handler gets through
it with what the request itself has, and `handleRequestParams_ownParams_iff`
that all of them have to be like that.
-/

namespace IotHome.Firmware

open IotHome.Lib

/-- Two arrays that agree on the entries of a request with `n` parameters. -/
def AgreeBelow (n : Nat) (a b : Nat → CharPtr) : Prop :=
  ∀ i, i < n → a i = b i

instance (n : Nat) (a b : Nat → CharPtr) : Decidable (AgreeBelow n a b) :=
  inferInstanceAs (Decidable (∀ i, i < n → a i = b i))

/-- The request of the first `n` entries is answered from those entries:
whatever stands behind them the handler gets through it, with one and the same
outcome, its writes and its response, and without a `val` among them it writes
nothing. -/
def OwnParamsOnly (n : Nat) (pcParam pcValue : Nat → CharPtr) : Prop :=
  ∀ g, ∃ g' res,
    (∀ pcParam' pcValue', AgreeBelow n pcParam' pcParam →
      AgreeBelow n pcValue' pcValue →
        handleRequestParams n pcParam' pcValue' g = .ok (g', res)) ∧
    ((∀ i, i < n → pcParam i ≠ some "val") → g'.puts = g.puts)

/-- The pointer is a numeral for one of the ten table entries. -/
def NamesPin (value : CharPtr) : Prop :=
  ∃ x, atoi value = .ok x ∧ 0 ≤ x ∧ x < 10

/-- If the parameter at `i` is a `pin`, its value names an entry of the
tables, and the entry behind it, the tenth being the last one looked at, has
a name, and a value if it is a `val`. -/
def SafeAt (pcParam pcValue : Nat → CharPtr) (i : Nat) : Prop :=
  pcParam i = some "pin" → NamesPin (pcValue i) ∧
    (i + 1 < 10 → pcParam (i + 1) ≠ none ∧
      (pcParam (i + 1) = some "val" → pcValue (i + 1) ≠ none))

/-- The parameter at `i` has a name, and if it is a `pin`, its value names an
entry of the tables, and the entry behind it, the tenth being the last one
looked at, is of the request as well, and has a value if it is a `val`. -/
def OwnAt (n : Nat) (pcParam pcValue : Nat → CharPtr) (i : Nat) : Prop :=
  pcParam i ≠ none ∧
  (pcParam i = some "pin" → NamesPin (pcValue i) ∧
    (i + 1 < 10 → i + 1 < n ∧
      (pcParam (i + 1) = some "val" → pcValue (i + 1) ≠ none)))

/-! ## What one parameter reads -/

theorem namesPin_iff {value : CharPtr} :
    NamesPin value ↔ ∃ p, (atoi value >>= arrayIndex) = .ok p := by
  cases h : atoi value with
  | error e => simp [NamesPin, h]
  | ok x =>
      simp only [NamesPin, h, ok_bind, arrayIndex, Except.ok.injEq]
      constructor
      · intro h'
        obtain ⟨y, rfl, hy⟩ := h'
        exact ⟨x.toNat, if_pos hy⟩
      · intro h'
        obtain ⟨p, hp⟩ := h'
        refine ⟨x, rfl, ?_⟩
        split at hp
        · assumption
        · cases hp

theorem exists_valAfter {pcParam pcValue : Nat → CharPtr} {i : Nat}
    (hi : i + 1 < 10) :
    (∃ v, valAfter pcParam pcValue i = .ok v) ↔
      pcParam (i + 1) ≠ none ∧
        (pcParam (i + 1) = some "val" → pcValue (i + 1) ≠ none) := by
  cases hname : pcParam (i + 1) with
  | none =>
      rw [valAfter, if_pos hi, hname]
      simp [strcmpEq]
  | some name =>
      by_cases hv : name = "val"
      · subst hv
        rw [valAfter_val hi hname]
        cases pcValue (i + 1) with
        | none => simp [atoi]
        | some s => simp [atoi]
      · rw [valAfter_not_val hname hv]
        simp [hv]

theorem exists_valAfter_iff {pcParam pcValue : Nat → CharPtr} {i : Nat} :
    (∃ v, valAfter pcParam pcValue i = .ok v) ↔
      (i + 1 < 10 → pcParam (i + 1) ≠ none ∧
        (pcParam (i + 1) = some "val" → pcValue (i + 1) ≠ none)) := by
  by_cases hi : i + 1 < 10
  · simp only [exists_valAfter hi, hi, true_imp_iff]
  · rw [valAfter, if_neg hi]
    simp [hi]

theorem exists_commandAt_iff {pcParam pcValue : Nat → CharPtr} {i : Nat} :
    (∃ c, commandAt pcParam pcValue i = .ok c) ↔
      pcParam i ≠ none ∧ SafeAt pcParam pcValue i := by
  cases hname : pcParam i with
  | none => simp [commandAt, hname, strcmpEq]
  | some name =>
      by_cases hp : name = "pin"
      · subst hp
        rw [SafeAt, commandAt_pin hname, exists_bind_ok, namesPin_iff,
          ← exists_valAfter_iff]
        simp only [exists_bind_pure_ok, hname, true_imp_iff]
        constructor
        · intro h
          obtain ⟨p, hpin, hval⟩ := h
          exact ⟨Option.some_ne_none _, ⟨p, hpin⟩, hval⟩
        · intro h
          obtain ⟨_, ⟨p, hpin⟩, hval⟩ := h
          exact ⟨p, hpin, hval⟩
      · rw [SafeAt, commandAt_not_pin hname hp, hname]
        simp [hp]

/-- A parameter that is not the last one, or is the tenth, is read off the
entries of its request. -/
theorem commandAt_congr {n i : Nat} {pcParam pcValue pcParam' pcValue' :
    Nat → CharPtr} (hp : AgreeBelow n pcParam' pcParam)
    (hv : AgreeBelow n pcValue' pcValue) (hi : i < n)
    (hnext : i + 1 < n ∨ 10 ≤ i + 1) :
    commandAt pcParam' pcValue' i = commandAt pcParam pcValue i := by
  have hval : valAfter pcParam' pcValue' i = valAfter pcParam pcValue i := by
    rw [valAfter, valAfter]
    split
    · have hin : i + 1 < n := by omega
      rw [hp _ hin, hv _ hin]
    · rfl
  rw [commandAt, commandAt, hp i hi, hv i hi, hval]

/-! ## What a run of them reads -/

/-- The loop gets through its parameters exactly when it gets through each of
them, the tenth being the last. -/
theorem exists_commandsFrom_iff {pcParam pcValue : Nat → CharPtr} {n : Nat} :
    ∀ left i, i + left = n → i ≤ 10 →
      ((∃ cs, commandsFrom pcParam pcValue left i = .ok cs) ↔
        ∀ j, i ≤ j → j < n → j < 10 →
          pcParam j ≠ none ∧ SafeAt pcParam pcValue j) := by
  intro left
  induction left with
  | zero =>
      intro i hin _
      rw [commandsFrom]
      constructor
      · intro _ j hij hjn _
        omega
      · intro _
        exact ⟨[], rfl⟩
  | succ left ih =>
      intro i hin hi
      rw [commandsFrom]
      split
      · constructor
        · intro _ j hij _ hj
          omega
        · intro _
          exact ⟨[], rfl⟩
      · rw [exists_bind_ok]
        simp only [exists_bind_pure_ok]
        rw [ih (i + 1) (by omega) (by omega)]
        constructor
        · intro h j hij hjn hj
          obtain ⟨c, hc, hrest⟩ := h
          rcases Nat.eq_or_lt_of_le hij with rfl | hlt
          · exact exists_commandAt_iff.1 ⟨c, hc⟩
          · exact hrest j hlt hjn hj
        · intro h
          have hsafe := h i (Nat.le_refl i) (by omega) (by omega)
          obtain ⟨c, hc⟩ := exists_commandAt_iff.2 hsafe
          exact ⟨c, hc, fun j hij => h j (by omega)⟩

/-- What the handler gets through with what the request has is read off the
entries of the request. -/
theorem OwnAt.commandAt_eq {n i : Nat} {pcParam pcValue pcParam' pcValue' :
    Nat → CharPtr} (h : OwnAt n pcParam pcValue i) (hi : i < n)
    (hp : AgreeBelow n pcParam' pcParam)
    (hv : AgreeBelow n pcValue' pcValue) :
    commandAt pcParam' pcValue' i = commandAt pcParam pcValue i := by
  obtain ⟨hnamed, hpin⟩ := h
  obtain ⟨name, hname⟩ := Option.ne_none_iff_exists'.1 hnamed
  by_cases hn : name = "pin"
  · refine commandAt_congr hp hv hi ?_
    by_cases hten : i + 1 < 10
    · exact .inl ((hpin (hn ▸ hname)).2 hten).1
    · exact .inr (by omega)
  · rw [commandAt_not_pin hname hn,
      commandAt_not_pin ((hp i hi).trans hname) hn]

theorem commandsFrom_congr {n : Nat} {pcParam pcValue pcParam' pcValue' :
    Nat → CharPtr} (hp : AgreeBelow n pcParam' pcParam)
    (hv : AgreeBelow n pcValue' pcValue)
    (h : ∀ i, i < n → i < 10 → OwnAt n pcParam pcValue i) :
    ∀ left i, i + left = n → i ≤ 10 →
      commandsFrom pcParam' pcValue' left i =
        commandsFrom pcParam pcValue left i := by
  intro left
  induction left with
  | zero => intro i _ _; rfl
  | succ left ih =>
      intro i hin hten
      rw [commandsFrom, commandsFrom]
      split
      · rfl
      · have hown := h i (by omega) (by omega)
        rw [hown.commandAt_eq (by omega) hp hv,
          ih (i + 1) (by omega) (by omega)]

/-! ## Commands that only read -/

theorem valAfter_of_no_val {pcParam pcValue : Nat → CharPtr} {i : Nat}
    {v : Int} (h : pcParam (i + 1) ≠ some "val")
    (hv : valAfter pcParam pcValue i = .ok v) : v = -1 := by
  cases hname : pcParam (i + 1) with
  | none =>
      rw [valAfter, hname] at hv
      split at hv
      · cases hv
      · exact (Except.ok.inj hv).symm
  | some name =>
      have hne : name ≠ "val" := fun heq => h (heq ▸ hname)
      rw [valAfter_not_val hname hne] at hv
      exact (Except.ok.inj hv).symm

theorem commandAt_of_no_val {pcParam pcValue : Nat → CharPtr} {i : Nat}
    {c : List Command} (h : pcParam (i + 1) ≠ some "val")
    (hc : commandAt pcParam pcValue i = .ok c) : ∀ d ∈ c, d.2 = -1 := by
  cases hname : pcParam i with
  | none => rw [commandAt, hname] at hc; cases hc
  | some name =>
      by_cases hpin : name = "pin"
      · subst hpin
        rw [commandAt_pin hname, bind_eq_ok] at hc
        obtain ⟨p, _, hc⟩ := hc
        rw [bind_eq_ok] at hc
        obtain ⟨v, hv, hc⟩ := hc
        obtain rfl := (Except.ok.inj hc).symm
        intro d hd
        rw [List.mem_singleton.1 hd]
        exact valAfter_of_no_val h hv
      · rw [commandAt_not_pin hname hpin] at hc
        obtain rfl := (Except.ok.inj hc).symm
        intro d hd
        cases hd

theorem puts_of_no_val {pcParam pcValue : Nat → CharPtr}
    (h : ∀ i, pcParam i ≠ some "val") {n : Nat} {g g' : Gpio} {res : String}
    (hrun : handleRequestParams n pcParam pcValue g = .ok (g', res)) :
    g'.puts = g.puts := by
  rw [handleRequestParams_eq, map_eq_ok] at hrun
  obtain ⟨cs, hcs, hg⟩ := hrun
  rw [← (Prod.mk.inj hg).1, foldl_drive_puts, List.append_right_eq_self,
    List.flatMap_eq_nil_iff]
  intro d hd
  have hread := forall_commandsFrom
    (fun i _ hc => commandAt_of_no_val (h (i + 1)) hc) n 0 cs hcs d
    (mem_requested hd)
  rw [hread]
  rfl

/-! ## The handler -/

theorem isOk_handle {n : Nat} {pcParam pcValue : Nat → CharPtr} (g : Gpio) :
    (∃ r, handleRequestParams n pcParam pcValue g = .ok r) ↔
      ∃ cs, commandsFrom pcParam pcValue n 0 = .ok cs := by
  rw [handleRequestParams_eq]
  cases commandsFrom pcParam pcValue n 0 with
  | error e => simp
  | ok cs => simp

/-- An array cut off behind the entries of a request. -/
def cutAt (n : Nat) (a : Nat → CharPtr) (rest : CharPtr) : Nat → CharPtr :=
  fun i => if i < n then a i else rest

theorem agreeBelow_cutAt (n : Nat) (a : Nat → CharPtr) (rest : CharPtr) :
    AgreeBelow n (cutAt n a rest) a := fun _ hi => if_pos hi

section

variable {n : Nat} {pcParam pcValue : Nat → CharPtr}

/-- Behind the request there may be nothing but NULL. -/
theorem ownAt_of_ownParamsOnly (h : OwnParamsOnly n pcParam pcValue) {i : Nat}
    (hi : i < n) (hten : i < 10) : OwnAt n pcParam pcValue i := by
  obtain ⟨g', res, hsame, _⟩ := h ⟨fun _ => false, fun _ => false, []⟩
  have hcut := (isOk_handle _).1 ⟨_, hsame _ _
    (agreeBelow_cutAt n pcParam none) (agreeBelow_cutAt n pcValue none)⟩
  obtain ⟨hnamed, hsafe⟩ := (exists_commandsFrom_iff n 0 (Nat.zero_add n)
    (Nat.zero_le 10)).1 hcut i (Nat.zero_le i) hi hten
  rw [SafeAt] at hsafe
  rw [cutAt, if_pos hi] at hnamed hsafe
  refine ⟨hnamed, fun hpin => ?_⟩
  obtain ⟨hnames, hnext⟩ := hsafe hpin
  rw [cutAt, if_pos hi] at hnames
  refine ⟨hnames, fun hten' => ?_⟩
  obtain ⟨hthere, hval⟩ := hnext hten'
  by_cases hnextOwn : i + 1 < n
  · rw [cutAt, cutAt, if_pos hnextOwn, if_pos hnextOwn] at hval
    exact ⟨hnextOwn, hval⟩
  · exact absurd (if_neg hnextOwn) hthere

theorem exists_run_of_ownAt
    (h : ∀ i, i < n → i < 10 → OwnAt n pcParam pcValue i) (g : Gpio) :
    ∃ r, handleRequestParams n pcParam pcValue g = .ok r := by
  rw [isOk_handle, exists_commandsFrom_iff n 0 (Nat.zero_add n)
    (Nat.zero_le 10)]
  intro i _ hi hten
  refine ⟨(h i hi hten).1, fun hpin => ?_⟩
  obtain ⟨hnames, hnext⟩ := (h i hi hten).2 hpin
  refine ⟨hnames, fun hten' => ?_⟩
  obtain ⟨hown, hval⟩ := hnext hten'
  exact ⟨(h (i + 1) hown hten').1, hval⟩

/-- What stands behind it is not looked at then. -/
theorem ownParamsOnly_of_ownAt
    (h : ∀ i, i < n → i < 10 → OwnAt n pcParam pcValue i) :
    OwnParamsOnly n pcParam pcValue := by
  intro g
  have hread : ∀ pcParam' pcValue', AgreeBelow n pcParam' pcParam →
      AgreeBelow n pcValue' pcValue →
      handleRequestParams n pcParam' pcValue' g =
        handleRequestParams n pcParam pcValue g := by
    intro pcParam' pcValue' hp hv
    rw [handleRequestParams_eq, handleRequestParams_eq,
      commandsFrom_congr hp hv h n 0 (Nat.zero_add n) (Nat.zero_le 10)]
  obtain ⟨r, hrun⟩ := exists_run_of_ownAt h g
  refine ⟨r.1, r.2, fun pcParam' pcValue' hp hv =>
    (hread pcParam' pcValue' hp hv).trans hrun, fun hval => ?_⟩
  have hempty := (hread _ _ (agreeBelow_cutAt n pcParam (some ""))
    (agreeBelow_cutAt n pcValue none)).trans hrun
  refine puts_of_no_val (fun i => ?_) hempty
  rw [cutAt]
  split
  · next hi => exact hval i hi
  · simp

end

/-- A request is answered from its own parameters exactly when it gets the
handler through each of the first ten. -/
theorem handleRequestParams_ownParams_iff (n : Nat)
    (pcParam pcValue : Nat → CharPtr) :
    OwnParamsOnly n pcParam pcValue ↔
      ∀ i, i < n → i < 10 → OwnAt n pcParam pcValue i :=
  ⟨fun h _ => ownAt_of_ownParamsOnly h, ownParamsOnly_of_ownAt⟩

/-- A request whose parameters are followed by what an older one left. -/
def slots (own leftover : List CharPtr) : Nat → CharPtr :=
  fun i => (own ++ leftover)[i]?.join

/-- `pin=2` alone only reads; behind it stands the `val=1` of an older
request, and pin 2 is written. -/
theorem handleRequestParams_drives_leftover :
    (handleRequestParams 1 (slots [some "pin"] [some "val"])
        (slots [some "2"] [some "1"])
        ⟨fun _ => false, fun _ => false, []⟩).map (fun r => r.1.puts) =
      .ok [(2, true)] ∧
    ¬ OwnParamsOnly 1 (slots [some "pin"] []) (slots [some "2"] []) := by
  refine ⟨rfl, ?_⟩
  intro h
  obtain ⟨g', res, hsame, hreads⟩ :=
    h ⟨fun _ => false, fun _ => false, []⟩
  have hrun := hsame (slots [some "pin"] [some "val"])
    (slots [some "2"] [some "1"]) (by decide) (by decide)
  have hputs := congrArg (Except.map fun r => r.1.puts) hrun
  rw [show (Except.ok (g', res)).map (fun r => r.1.puts) =
    (Except.ok g'.puts : Except Fault _) from rfl,
    hreads (by decide)] at hputs
  exact absurd (Except.ok.inj hputs) (by decide)

end IotHome.Firmware
