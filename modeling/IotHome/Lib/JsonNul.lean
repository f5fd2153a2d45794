import IotHome.Lib.JsonRead

/-!
# A text with a NUL in it is no JSON

Outside a string a NUL ends no word and begins one, and no word has it; in a
string it would have to be escaped. So whatever a text goes on with behind a
NUL, it does not parse.
-/

namespace IotHome.Lib

/-- The characters that a numeral of the JSON grammar can have. -/
def isNumeralInput (c : Char) : Bool := isNumeralChar c || c = 'E'

theorem isNumeralInput_of_isDigit {c : Char} (h : c.isDigit = true) :
    isNumeralInput c = true := by
  simp [isNumeralInput, isNumeralChar_of_isDigit h]

/-- What is behind the sign of an exponent. -/
theorem exponent_digits {c : Char} {ds : List Char} {n e : Int}
    (h : (if c ≠ 'e' ∧ c ≠ 'E' then none
      else if ds.isEmpty || ds.any (!·.isDigit) then none
      else some n) = some e) :
    isNumeralInput c = true ∧ ∀ d ∈ ds, isNumeralInput d = true := by
  split at h
  · cases h
  next hmark =>
  split at h
  · cases h
  next hds =>
  constructor
  · rcases Decidable.not_and_iff_not_or_not.1 hmark with he | hE
    · simp [isNumeralInput, isNumeralChar, Decidable.not_not.1 he]
    · simp [isNumeralInput, Decidable.not_not.1 hE]
  · intro d hd
    simp only [Bool.or_eq_true, List.any_eq_true, not_or, not_exists,
      not_and] at hds
    have hdigit := hds.2 d hd
    exact isNumeralInput_of_isDigit (by simpa using hdigit)

theorem exponent_chars {cs : List Char} {e : Int}
    (h : exponent cs = some e) : ∀ c ∈ cs, isNumeralInput c = true := by
  cases cs with
  | nil => simp
  | cons c cs =>
      rw [List.forall_mem_cons]
      cases cs with
      | nil => exact exponent_digits h
      | cons d ds =>
          by_cases hminus : d = '-'
          · subst hminus
            obtain ⟨hc, hds⟩ := exponent_digits h
            exact ⟨hc, List.forall_mem_cons.2 ⟨by decide, hds⟩⟩
          by_cases hplus : d = '+'
          · subst hplus
            obtain ⟨hc, hds⟩ := exponent_digits h
            exact ⟨hc, List.forall_mem_cons.2 ⟨by decide, hds⟩⟩
          rw [exponent] at h
          · exact @exponent_digits c (d :: ds) _ _ h
          · exact fun ds' heq => hminus (List.cons.inj heq).1
          · exact fun ds' heq => hplus (List.cons.inj heq).1

theorem fraction_chars {cs frac rest : List Char}
    (h : fraction cs = some (frac, rest)) :
    ∀ c ∈ cs, isNumeralInput c = true ∨ c ∈ rest := by
  cases cs with
  | nil => simp
  | cons c cs =>
      by_cases hpoint : c = '.'
      · subst hpoint
        rw [fraction] at h
        split at h
        · cases h
        · obtain ⟨_, rfl⟩ := Prod.mk.inj (Option.some.inj h)
          rw [List.forall_mem_cons]
          refine ⟨.inl (by decide), fun d hd => ?_⟩
          rw [← List.takeWhile_append_dropWhile (p := Char.isDigit) (l := cs),
            List.mem_append] at hd
          exact hd.imp_left fun ht =>
            isNumeralInput_of_isDigit (List.mem_takeWhile_imp ht)
      · rw [fraction_none (by simpa using hpoint)] at h
        obtain ⟨_, rfl⟩ := Prod.mk.inj (Option.some.inj h)
        exact fun d hd => .inr hd

theorem parseUnsigned_chars {neg : Bool} {cs : List Char} {d : Dec}
    (h : parseUnsigned neg cs = some d) :
    ∀ c ∈ cs, isNumeralInput c = true := by
  simp only [parseUnsigned] at h
  split at h
  · cases h
  · obtain ⟨⟨frac, rest⟩, hfrac, h⟩ := Option.bind_eq_some_iff.1 h
    obtain ⟨exp, hexp, _⟩ := Option.bind_eq_some_iff.1 h
    intro c hc
    rw [← List.takeWhile_append_dropWhile (p := Char.isDigit) (l := cs),
      List.mem_append] at hc
    rcases hc with ht | hd
    · exact isNumeralInput_of_isDigit (List.mem_takeWhile_imp ht)
    · exact (fraction_chars hfrac c hd).elim id (exponent_chars hexp c)

theorem parseNumeral_chars {cs : List Char} {d : Dec}
    (h : parseNumeral cs = some d) : ∀ c ∈ cs, isNumeralInput c = true := by
  rw [parseNumeral.eq_def] at h
  split at h
  · rw [List.forall_mem_cons]
    exact ⟨by decide, parseUnsigned_chars h⟩
  · exact parseUnsigned_chars h

namespace Json

theorem classify_nul {word : JsString} (h : 0 ∈ word) :
    classify word = none := by
  have hname : ∀ name : JsString, 0 ∉ name → word ≠ name :=
    fun name hnot heq => hnot (heq ▸ h)
  rw [classify, if_neg (hname _ (by decide)), if_neg (hname _ (by decide)),
    if_neg (hname _ (by decide)), Option.map_eq_none_iff]
  cases hparse : parseNumeral (word.map fun u => Char.ofNat u.toNat) with
  | none => rfl
  | some d =>
      have hchar := parseNumeral_chars hparse (Char.ofNat 0)
        (List.mem_map.2 ⟨0, h, rfl⟩)
      exact absurd hchar (by decide)

/-- Once a word has a NUL in it, nothing is read. -/
theorem run_nul_word {units text : JsString} {s : Stack} (h : 0 ∈ units) :
    (text.foldlM Machine.step ⟨.word units, s⟩).bind Machine.finish =
      none := by
  induction text generalizing units with
  | nil => simp [Machine.finish, classify_nul h]
  | cons u text ih =>
      by_cases hends : endsWord u = true
      · have hnone : Machine.step ⟨.word units, s⟩ u = none := by
          simp [Machine.step, hends, classify_nul h]
        simp [List.foldlM_cons, hnone]
      · have hword : Machine.step ⟨.word units, s⟩ u =
            some ⟨.word (units ++ [u]), s⟩ := by simp [Machine.step, hends]
        simp only [List.foldlM_cons, hword, Option.bind_eq_bind,
          Option.bind_some]
        exact ih (List.mem_append_left _ h)

theorem step_nul (m : Machine) : Machine.step m 0 = none ∨
    ∃ units s, Machine.step m 0 = some ⟨.word units, s⟩ ∧ 0 ∈ units := by
  have hstart : ∀ s, start s 0 = some ⟨.word [0], s⟩ := fun s => rfl
  obtain ⟨lexer, stack⟩ := m
  cases lexer with
  | idle => exact .inr ⟨[0], stack, hstart stack, by simp⟩
  | word units => exact .inr ⟨units ++ [0], stack, rfl, by simp⟩
  | str units => exact .inl rfl
  | escape units => exact .inl rfl
  | hex units left value => exact .inl rfl

theorem parse_nul {text : JsString} (h : 0 ∈ text) : parse text = none := by
  obtain ⟨before, after, rfl⟩ := List.append_of_mem h
  show (List.foldlM Machine.step _ (before ++ 0 :: after)).bind _ = none
  rw [List.foldlM_append]
  cases List.foldlM Machine.step ⟨.idle, ⟨[], .value⟩⟩ before with
  | none => rfl
  | some m =>
      show (List.foldlM Machine.step m (0 :: after)).bind _ = none
      rw [List.foldlM_cons]
      rcases step_nul m with hnone | ⟨units, s, hword, hmem⟩
      · rw [hnone]
        rfl
      · rw [hword]
        exact run_nul_word hmem

end Json

end IotHome.Lib
