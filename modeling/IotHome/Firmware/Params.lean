import IotHome.Firmware.Uri

/-!
# The pins a parameter list names

The loop of the handler looks at a parameter called `pin` and at the name
right behind it. On a list this is a recursion: `occurrences` are the texts of
the pins, each with the text that follows it under the name `val`, if one
does. `commandsFrom_occurrences` says that the loop reads these and nothing
else, faults included, as long as the arrays hold the list and what stands
behind it is not called `val`.
-/

namespace IotHome.Firmware

open IotHome.Lib

/-- The text behind a pin, if it is there under the name `val`. -/
def following : List Param → Option CharPtr
  | [] => none
  | p :: _ => if p.1 = "val" then some p.2 else none

/-- The texts of the pins, each with the one that follows it. -/
def occurrences : List Param → List (CharPtr × Option CharPtr)
  | [] => []
  | p :: ps =>
      if p.1 = "pin" then (p.2, following ps) :: occurrences ps
      else occurrences ps

/-- The value of an occurrence; one without a value only reads. -/
def readFollowing : Option CharPtr → Except Fault Int
  | none => .ok (-1)
  | some v => atoi v

/-- The command an occurrence is read as. -/
def readOccurrence (o : CharPtr × Option CharPtr) : Except Fault Command := do
  let pin ← (atoi o.1 >>= arrayIndex)
  let val ← readFollowing o.2
  pure (pin, val)

theorem following_ne {p : Param} {ps : List Param} (h : p.1 ≠ "val") :
    following (p :: ps) = none := by rw [following, if_neg h]

theorem readOccurrence_ok {o : CharPtr × Option CharPtr} {x val : Int}
    (hpin : atoi o.1 = .ok x) (h0 : 0 ≤ x) (h9 : x < 10)
    (hval : readFollowing o.2 = .ok val) :
    readOccurrence o = .ok (x.toNat, val) := by
  rw [readOccurrence, hpin, hval, ok_bind, arrayIndex, if_pos ⟨h0, h9⟩]
  rfl

/-! ## The arrays from an index on -/

/-- The last of the parameters is a pin, so that the handler looks at what
stands behind them. -/
def EndsInPin (ps : List Param) : Prop := ∃ v, ps.getLast? = some ("pin", v)

/-- There is a name behind the parameters where the handler looks for one. -/
def NamedBehind (ps : List Param) (pcParam : Nat → CharPtr) : Prop :=
  ps.length < 10 → EndsInPin ps → pcParam ps.length ≠ none

/-- The arrays hold the parameters from index `i` on, and what stands behind
them, where the handler looks at it, is the name of no value. -/
structure HoldsFrom (ps : List Param) (pcParam pcValue : Nat → CharPtr)
    (i : Nat) : Prop where
  holds : ∀ (j : Nat) p, ps[j]? = some p →
    pcParam (i + j) = some p.1 ∧ pcValue (i + j) = p.2
  behind : i + ps.length < 10 → EndsInPin ps →
    ∃ n, pcParam (i + ps.length) = some n ∧ n ≠ "val"
  bound : i + ps.length ≤ 10

theorem EndsInPin.cons {p : Param} {ps : List Param} (h : EndsInPin ps) :
    EndsInPin (p :: ps) := by
  obtain ⟨v, hv⟩ := h
  exact ⟨v, by rw [List.getLast?_cons, hv]; rfl⟩

theorem HoldsFrom.head {p : Param} {ps : List Param}
    {pcParam pcValue : Nat → CharPtr} {i : Nat}
    (h : HoldsFrom (p :: ps) pcParam pcValue i) :
    pcParam i = some p.1 ∧ pcValue i = p.2 := h.holds 0 p rfl

theorem HoldsFrom.tail {p : Param} {ps : List Param}
    {pcParam pcValue : Nat → CharPtr} {i : Nat}
    (h : HoldsFrom (p :: ps) pcParam pcValue i) :
    HoldsFrom ps pcParam pcValue (i + 1) := by
  have hlen : i + (p :: ps).length = i + 1 + ps.length := by
    rw [List.length_cons]
    omega
  refine ⟨fun j q hq => ?_, ?_, ?_⟩
  · have hj := h.holds (j + 1) q hq
    rwa [show i + (j + 1) = i + 1 + j by omega] at hj
  · intro hten hpin
    rw [← hlen] at hten ⊢
    exact h.behind hten hpin.cons
  · rw [← hlen]
    exact h.bound

theorem holdsFrom_zero {ps : List Param} {pcParam pcValue : Nat → CharPtr}
    (hten : ps.length ≤ 10) (hholds : Holds ps pcParam pcValue)
    (hbehind : ps.length < 10 → pcParam ps.length ≠ some "val")
    (hnamed : NamedBehind ps pcParam) : HoldsFrom ps pcParam pcValue 0 := by
  refine ⟨fun j p hp => ?_, ?_, by omega⟩
  · rw [Nat.zero_add]
    exact hholds.getElem? hp
  · rw [Nat.zero_add]
    intro hlt hpin
    obtain ⟨n, hn⟩ := Option.ne_none_iff_exists'.1 (hnamed hlt hpin)
    refine ⟨n, hn, ?_⟩
    rintro rfl
    exact hbehind hlt hn

theorem valAfter_none {pcParam pcValue : Nat → CharPtr} {i : Nat}
    (h : i + 1 < 10 → ∃ n, pcParam (i + 1) = some n ∧ n ≠ "val") :
    valAfter pcParam pcValue i = .ok (-1) := by
  by_cases hi : i + 1 < 10
  · obtain ⟨n, hn, hne⟩ := h hi
    exact valAfter_not_val hn hne
  · rw [valAfter, if_neg hi]
    rfl

/-- The look-ahead of a pin finds what follows in the list. -/
theorem valAfter_following {p : Param} {ps : List Param}
    {pcParam pcValue : Nat → CharPtr} {i : Nat} (hpin : p.1 = "pin")
    (h : HoldsFrom (p :: ps) pcParam pcValue i) :
    valAfter pcParam pcValue i = readFollowing (following ps) := by
  cases ps with
  | nil =>
      obtain ⟨name, value⟩ := p
      obtain rfl : name = "pin" := hpin
      exact valAfter_none fun hi => h.behind hi ⟨value, rfl⟩
  | cons q ps =>
      have hbound := h.bound
      rw [List.length_cons, List.length_cons] at hbound
      have hnext := h.tail.head
      by_cases hval : q.1 = "val"
      · rw [following, if_pos hval, readFollowing, valAfter_val (by omega)
          (hval ▸ hnext.1), hnext.2]
      · rw [following_ne hval]
        exact valAfter_none fun _ => ⟨q.1, hnext.1, hval⟩

theorem commandsFrom_occurrences {pcParam pcValue : Nat → CharPtr} :
    ∀ (ps : List Param) (i : Nat), HoldsFrom ps pcParam pcValue i →
      commandsFrom pcParam pcValue ps.length i =
        (occurrences ps).mapM readOccurrence := by
  intro ps
  induction ps with
  | nil => intro i _; rfl
  | cons p ps ih =>
      intro i h
      have hbound := h.bound
      rw [List.length_cons] at hbound
      rw [List.length_cons, commandsFrom, if_neg (by omega),
        ih (i + 1) h.tail, occurrences]
      by_cases hpin : p.1 = "pin"
      · rw [if_pos hpin, commandAt_pin (hpin ▸ h.head.1), h.head.2,
          valAfter_following hpin h, List.mapM_cons, readOccurrence]
        cases atoi p.2 >>= arrayIndex with
        | error e => rfl
        | ok pin => cases readFollowing (following ps) <;> rfl
      · rw [if_neg hpin, commandAt_not_pin h.head.1 hpin, ok_bind]
        cases (occurrences ps).mapM readOccurrence <;> rfl

end IotHome.Firmware
