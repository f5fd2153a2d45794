import IotHome.Cmd.Arg
import Mathlib.Data.List.TakeWhile

/-!
# What is found under a name

An argument `name=text` gives `text` for `name`. The pass over the arguments
keeps of it what stands in front of the next `=`, and nothing if that is the
empty text (`valuesOf_eq`), so it finds the texts as they were given exactly
when none of them has a `=` in it (`getListValueOf_given_iff`).
-/

namespace IotHome.Cmd

open IotHome.Lib

/-- The text of an argument `name=text`, if it is not empty. -/
def givenText (name arg : JsString) : Option JsString :=
  if name ++ [unit '='] <+: arg ∧ arg.drop (name.length + 1) ≠ [] then
    some (arg.drop (name.length + 1))
  else none

/-- The non-empty texts given for a name, in order and with repetitions. -/
def givenFor (name : JsString) (args : List JsString) : List JsString :=
  args.filterMap (givenText name)

/-- What the pass keeps of a text. -/
def keptText (text : JsString) : Option JsString :=
  if beforeEquals text = [] then none else some (beforeEquals text)

theorem givenText_named (name text : JsString) :
    givenText name (name ++ unit '=' :: text) =
      if text = [] then none else some text := by
  have hdrop : (name ++ unit '=' :: text).drop (name.length + 1) = text := by
    rw [List.drop_append]
    simp
  have hpre : name ++ [unit '='] <+: name ++ unit '=' :: text :=
    ⟨text, by simp⟩
  rw [givenText, hdrop]
  by_cases h : text = []
  · rw [if_pos h, if_neg fun hne => hne.2 h]
  · rw [if_neg h, if_pos ⟨hpre, h⟩]

theorem givenText_eq_none {name arg : JsString}
    (h : ¬ name ++ [unit '='] <+: arg) : givenText name arg = none := by
  rw [givenText, if_neg fun hpre => h hpre.1]

/-- A text that is not empty is kept whole if it has no `=`. -/
theorem keptText_eq_self_iff {text : JsString} (hne : text ≠ []) :
    keptText text = some text ↔ unit '=' ∉ text := by
  have hself : beforeEquals text = text ↔ unit '=' ∉ text := by
    rw [beforeEquals, List.takeWhile_eq_self_iff]
    refine ⟨fun h hmem => ?_, fun h u hu => ?_⟩
    · exact absurd (h _ hmem) (by decide)
    · rw [bne_iff_ne]
      rintro rfl
      exact h hu
  rw [← hself, keptText]
  by_cases h : beforeEquals text = []
  · rw [if_pos h, h]
    refine ⟨fun hn => ?_, fun heq => absurd heq.symm hne⟩
    cases hn
  · rw [if_neg h, Option.some.injEq]

theorem valuesOf_eq {name : JsString} (hname : unit '=' ∉ name)
    (hdash : isDashed name = true) (args : List JsString) :
    valuesOf name args = (givenFor name args).filterMap keptText := by
  rw [valuesOf, givenFor, List.filterMap_filterMap]
  refine List.filterMap_congr fun arg _ => ?_
  by_cases hpre : name ++ [unit '='] <+: arg
  · obtain ⟨text, rfl⟩ := hpre
    rw [List.append_assoc, List.singleton_append]
    have hdashed : isDashed (name ++ unit '=' :: text) = true := by
      cases name with
      | nil => cases hdash
      | cons u us => exact hdash
    rw [dashedValue, if_pos hdashed, valueOf_named hname,
      nameOf_named hname, givenText_named]
    cases text with
    | nil => rfl
    | cons u us =>
        rw [if_neg (List.cons_ne_nil u us), Option.bind_some, keptText]
        by_cases hkept : beforeEquals (u :: us) = []
        · simp [hkept]
        · simp [hkept]
  · rw [givenText_eq_none hpre, Option.bind_none, dashedValue]
    by_cases hdashed : isDashed arg = true
    · cases hvalue : valueOf arg with
      | none => simp [hdashed]
      | some value =>
          obtain ⟨text, htext⟩ := eq_named hvalue
          have hne : nameOf arg ≠ name := by
            rintro rfl
            exact hpre ⟨text, by rw [List.append_assoc]; exact htext.symm⟩
          simp [hdashed, hne]
    · simp [hdashed]

theorem ne_nil_of_mem_givenFor {name text : JsString} {args : List JsString}
    (h : text ∈ givenFor name args) : text ≠ [] := by
  obtain ⟨arg, _, harg⟩ := List.mem_filterMap.1 h
  rw [givenText] at harg
  split at harg
  · next hgiven =>
      obtain rfl := Option.some.inj harg
      exact hgiven.2
  · cases harg

theorem getValueOf_eq_head? (A : Arg) (name : JsString) :
    A.getValueOf name = (A.getListValueOf name).head? := rfl

/-- The texts given for a name are found under it as they were given exactly
when none of them has a `=` in it. -/
theorem getListValueOf_given_iff {name : JsString} (hname : unit '=' ∉ name)
    (hdash : isDashed name = true) (args : List JsString) :
    (Arg.ofArgs args).getListValueOf name = givenFor name args ∧
        (Arg.ofArgs args).getValueOf name = (givenFor name args).head? ↔
      ∀ text ∈ givenFor name args, unit '=' ∉ text := by
  have hlist : (Arg.ofArgs args).getListValueOf name = givenFor name args ↔
      ∀ text ∈ givenFor name args, unit '=' ∉ text := by
    have hself := List.filterMap_eq_map_iff_forall_eq_some
      (f := keptText) (g := id) (l := givenFor name args)
    rw [List.map_id] at hself
    rw [getListValueOf_eq, valuesOf_eq hname hdash, hself]
    refine forall₂_congr fun text htext => ?_
    exact keptText_eq_self_iff (ne_nil_of_mem_givenFor htext)
  rw [getValueOf_eq_head?, ← hlist]
  exact and_iff_left_of_imp fun h => by rw [h]

/-- Two plain values for `--tag`, an empty one and one for another name. -/
theorem getListValueOf_given_iff_plain :
    (Arg.ofArgs [js "--tag=a", js "--tag=", js "--name=x=y",
        js "--tag=b"]).getListValueOf (js "--tag") = [js "a", js "b"] ∧
      (Arg.ofArgs [js "--tag=a", js "--tag=", js "--name=x=y",
        js "--tag=b"]).getValueOf (js "--tag") = some (js "a") := by
  have hgiven : givenFor (js "--tag") [js "--tag=a", js "--tag=",
      js "--name=x=y", js "--tag=b"] = [js "a", js "b"] := by decide
  have hiff := @getListValueOf_given_iff (js "--tag") (by decide)
    (by decide) [js "--tag=a", js "--tag=", js "--name=x=y", js "--tag=b"]
  rw [hgiven] at hiff
  exact hiff.2 (by decide)

/-- `--filter=a=b` gives `a`. -/
theorem getListValueOf_cuts :
    ∃ args name, unit '=' ∉ name ∧ isDashed name = true ∧
      givenFor name args = [js "a=b"] ∧
      (Arg.ofArgs args).getListValueOf name = [js "a"] ∧
      (Arg.ofArgs args).getValueOf name = some (js "a") :=
  ⟨[js "--filter=a=b"], js "--filter", by decide, by decide, by decide,
    by decide, by decide⟩

end IotHome.Cmd
