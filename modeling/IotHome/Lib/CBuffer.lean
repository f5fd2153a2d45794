import Mathlib.Data.List.Basic

/-!
# Strings in an array that is used again

An array of bytes is overwritten from its first byte on, and what is in it is
read up to the first zero. What an earlier copy left behind a shorter one is
then read too. So the text of every copy is what was copied just if no copy has
a zero in it, each leaves room for one, and none is shorter than one before
(`copiesExact_iff`).
-/

namespace IotHome.Lib

structure CBuffer (size : Nat) where
  bytes : List UInt8
  length_eq : bytes.length = size

namespace CBuffer

variable {size : Nat}

/-- An array that nothing was written to. -/
def zeros (size : Nat) : CBuffer size :=
  ⟨List.replicate size 0, List.length_replicate⟩

/-- The bytes from the start of the array on, with `none` if they do not fit. -/
def copy (b : CBuffer size) (source : List UInt8) : Option (CBuffer size) :=
  if h : source.length ≤ size then
    some ⟨source ++ b.bytes.drop source.length, by
      rw [List.length_append, List.length_drop, b.length_eq]
      omega⟩
  else none

/-- What is read up to the first zero, with `none` if there is none. -/
def text (b : CBuffer size) : Option (List UInt8) :=
  if b.bytes.contains 0 then some (b.bytes.takeWhile (· != 0)) else none

def copyAll (b : CBuffer size) (sources : List (List UInt8)) :
    Option (CBuffer size) :=
  sources.foldlM copy b

/-- What is in the array is this text, a zero behind it. -/
structure Holds (b : CBuffer size) (source : List UInt8) : Prop where
  terminated : b.bytes[source.length]? = some 0
  text : b.text = some source

/-- Each of the copies fits, and is what is then read. -/
def CopiesExact (b : CBuffer size) (sources : List (List UInt8)) : Prop :=
  ∀ before source after, sources = before ++ source :: after →
    ∃ b₁ b₂, b.copyAll before = some b₁ ∧ b₁.copy source = some b₂ ∧
      b₂.Holds source

/-- Texts that leave room for a zero, none shorter than the one before. -/
def Ascending (size : Nat) : Nat → List (List UInt8) → Prop
  | _, [] => True
  | longest, source :: rest =>
      (0 ∉ source ∧ source.length < size) ∧ longest ≤ source.length ∧
        Ascending size source.length rest

/-- Nothing but this text is in the array. -/
structure OnlyHas (b : CBuffer size) (source : List UInt8) : Prop where
  bytes : b.bytes = source ++ List.replicate (size - source.length) 0
  nonzero : 0 ∉ source

theorem zeros_onlyHas : (zeros size).OnlyHas [] where
  bytes := rfl
  nonzero := List.not_mem_nil

theorem text_append {b : CBuffer size} {source rest : List UInt8}
    (hbytes : b.bytes = source ++ 0 :: rest) (hsource : 0 ∉ source) :
    b.text = some source := by
  have hcontains : b.bytes.contains 0 = true := by
    rw [hbytes]
    simp
  have htake : (source ++ 0 :: rest).takeWhile (· != 0) = source := by
    rw [List.takeWhile_append_of_pos]
    · simp
    · intro byte hbyte
      exact bne_iff_ne.2 fun hzero => hsource (hzero ▸ hbyte)
  rw [text, if_pos hcontains, hbytes, htake]

theorem zero_not_mem_of_text {b : CBuffer size} {source : List UInt8}
    (h : b.text = some source) : 0 ∉ source := by
  rw [text] at h
  split at h
  · injection h with h
    intro hzero
    rw [← h] at hzero
    exact absurd (List.all_eq_true.1 List.all_takeWhile 0 hzero) (by simp)
  · cases h

/-- A copy over nothing but a text. -/
theorem copy_holds_iff {b : CBuffer size} {old source : List UInt8}
    (hb : b.OnlyHas old) :
    (∃ b', b.copy source = some b' ∧ b'.Holds source) ↔
      (0 ∉ source ∧ source.length < size) ∧ old.length ≤ source.length := by
  constructor
  · rintro ⟨b', hcopy, hholds⟩
    have hnonzero := zero_not_mem_of_text hholds.text
    rw [copy] at hcopy
    split at hcopy
    · next hfits =>
        injection hcopy with hcopy
        subst hcopy
        have hzero := hholds.terminated
        rw [List.getElem?_append_right (Nat.le_refl _), Nat.sub_self,
          List.getElem?_drop, Nat.add_zero, hb.bytes] at hzero
        have hlt : source.length < size := by
          have := (List.getElem?_eq_some_iff.1 hzero).1
          have := congrArg List.length hb.bytes
          rw [b.length_eq] at this
          omega
        refine ⟨⟨hnonzero, hlt⟩, ?_⟩
        by_contra hshort
        rw [List.getElem?_append_left (by omega)] at hzero
        exact hb.nonzero (List.mem_of_getElem? hzero)
    · cases hcopy
  · rintro ⟨⟨hnonzero, hlt⟩, hold⟩
    rw [copy, dif_pos (Nat.le_of_lt hlt)]
    have hdrop : b.bytes.drop source.length =
        0 :: List.replicate (size - source.length - 1) 0 := by
      rw [hb.bytes, List.drop_append, List.drop_eq_nil_of_le hold,
        List.nil_append, List.drop_replicate, ← List.replicate_succ]
      congr 1
      omega
    refine ⟨_, rfl, ⟨?_, ?_⟩⟩
    · show (source ++ b.bytes.drop source.length)[source.length]? = some 0
      rw [hdrop]
      simp
    · exact text_append (congrArg (source ++ ·) hdrop) hnonzero

theorem copy_onlyHas {b b' : CBuffer size} {old source : List UInt8}
    (hb : b.OnlyHas old) (hcopy : b.copy source = some b')
    (hnonzero : 0 ∉ source) (hold : old.length ≤ source.length) :
    b'.OnlyHas source := by
  rw [copy] at hcopy
  split at hcopy
  · injection hcopy with hcopy
    subst hcopy
    refine ⟨?_, hnonzero⟩
    show source ++ b.bytes.drop source.length = _
    rw [hb.bytes, List.drop_append, List.drop_eq_nil_of_le hold,
      List.nil_append, List.drop_replicate]
    congr 2
    omega
  · cases hcopy

theorem copiesExact_nil (b : CBuffer size) : b.CopiesExact [] := by
  intro before source after h
  simp at h

theorem copiesExact_cons (b : CBuffer size) (source : List UInt8)
    (rest : List (List UInt8)) :
    b.CopiesExact (source :: rest) ↔
      ∃ b', b.copy source = some b' ∧ b'.Holds source ∧
        b'.CopiesExact rest := by
  constructor
  · intro h
    obtain ⟨b₁, b', hb₁, hcopy, hholds⟩ := h [] source rest rfl
    injection hb₁ with hb₁
    subst hb₁
    refine ⟨b', hcopy, hholds, ?_⟩
    intro before source' after heq
    obtain ⟨b₁, b₂, hb₁, h₂⟩ :=
      h (source :: before) source' after (by rw [heq, List.cons_append])
    refine ⟨b₁, b₂, ?_, h₂⟩
    rwa [copyAll, List.foldlM_cons, hcopy] at hb₁
  · rintro ⟨b', hcopy, hholds, hrest⟩ before source' after heq
    cases before with
    | nil =>
        obtain ⟨rfl, rfl⟩ := List.cons.inj heq
        exact ⟨b, b', rfl, hcopy, hholds⟩
    | cons first before =>
        obtain ⟨rfl, htail⟩ := List.cons.inj heq
        obtain ⟨b₁, b₂, hb₁, h₂⟩ := hrest before source' after htail
        refine ⟨b₁, b₂, ?_, h₂⟩
        rw [copyAll, List.foldlM_cons, hcopy]
        exact hb₁

theorem copiesExact_iff_of_onlyHas (sources : List (List UInt8)) :
    ∀ {b : CBuffer size} {old : List UInt8}, b.OnlyHas old →
      (b.CopiesExact sources ↔ Ascending size old.length sources) := by
  induction sources with
  | nil =>
      intro b old _
      exact iff_of_true (copiesExact_nil b) trivial
  | cons source rest ih =>
      intro b old hb
      rw [copiesExact_cons, Ascending, ← and_assoc, ← copy_holds_iff hb]
      constructor
      · rintro ⟨b', hcopy, hholds, hrest⟩
        obtain ⟨hsource, hold⟩ := (copy_holds_iff hb).1 ⟨b', hcopy, hholds⟩
        exact ⟨⟨b', hcopy, hholds⟩,
          (ih (copy_onlyHas hb hcopy hsource.1 hold)).1 hrest⟩
      · rintro ⟨⟨b', hcopy, hholds⟩, hrest⟩
        obtain ⟨hsource, hold⟩ := (copy_holds_iff hb).1 ⟨b', hcopy, hholds⟩
        exact ⟨b', hcopy, hholds,
          (ih (copy_onlyHas hb hcopy hsource.1 hold)).2 hrest⟩

theorem copiesExact_iff (sources : List (List UInt8)) :
    (zeros size).CopiesExact sources ↔ Ascending size 0 sources :=
  copiesExact_iff_of_onlyHas sources zeros_onlyHas

end CBuffer

end IotHome.Lib
