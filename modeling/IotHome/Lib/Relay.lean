import Mathlib.Logic.Function.Basic
import Mathlib.Order.Defs.PartialOrder

/-!
# Relays

Items arrive at a relay one after the other, and handlers pass them on. What a
handler passes on is what was the last item when it started, and it takes its
time. One kind of handler starts with an item as it is taken up, and while it
is under way nothing else is taken up; handlers of the other kind, which join,
start at any time.

`Relay.Ok` is what holds at any time. With it, `Relay.Ok.sends_later_iff` says
when a handler passes on nothing older than what has been passed on before:
always, if it took its item up; otherwise if nothing newer has been passed on
since it joined.
-/

namespace IotHome.Lib

/-- What a handler that is under way will pass on, and how much had been
passed on when it started. -/
structure Held where
  item : Nat
  seen : Nat
  tookUp : Bool

@[ext]
structure Relay where
  arrived : Nat
  last : Option Nat
  block : Bool
  held : Nat → Option Held
  sent : List Nat

namespace Relay

def arrive (r : Relay) : Relay := { r with arrived := r.arrived + 1 }

def takeUp (r : Relay) (i p : Nat) : Relay :=
  { r with
    last := some p
    block := true
    held := Function.update r.held i (some ⟨p, r.sent.length, true⟩) }

def join (r : Relay) (i p : Nat) : Relay :=
  { r with held := Function.update r.held i (some ⟨p, r.sent.length, false⟩) }

/-- What happens without anything being passed on. -/
inductive Quiet (r : Relay) : Relay → Prop where
  | same : Quiet r r
  | arrive : Quiet r r.arrive
  | takeUp (i p : Nat) (harrived : r.arrived = p + 1)
      (hblock : r.block = false) : Quiet r (r.takeUp i p)
  | join (i p : Nat) (hlast : r.last = some p) : Quiet r (r.join i p)

def send (r : Relay) (i : Nat) (h : Held) : Relay :=
  { r with
    block := if h.tookUp then false else r.block
    held := Function.update r.held i none
    sent := r.sent ++ [h.item] }

structure Ok (r : Relay) : Prop where
  last_lt : ∀ p, r.last = some p → p < r.arrived
  sent_le : ∀ q ∈ r.sent, ∃ p, r.last = some p ∧ q ≤ p
  seen_le : ∀ i h, r.held i = some h → h.seen ≤ r.sent.length
  item_le : ∀ i h, r.held i = some h → ∃ p, r.last = some p ∧ h.item ≤ p
  taken : ∀ i h, r.held i = some h → h.tookUp = true →
    r.block = true ∧ r.last = some h.item
  one : ∀ i j h h', r.held i = some h → r.held j = some h' →
    h.tookUp = true → h'.tookUp = true → i = j
  joined : ∀ i h, r.held i = some h → h.tookUp = false →
    ∀ q ∈ r.sent.take h.seen, q ≤ h.item

def start : Relay := ⟨0, none, false, fun _ => none, []⟩

theorem ok_start : start.Ok where
  last_lt _ hp := by cases hp
  sent_le _ hq := by cases hq
  seen_le _ _ hi := by cases hi
  item_le _ _ hi := by cases hi
  taken _ _ hi := by cases hi
  one _ _ _ _ hi := by cases hi
  joined _ _ hi := by cases hi

/-- What is held after a handler has started or ended. -/
theorem held_update {held : Nat → Option Held} {i j : Nat} {h : Held}
    {h₀ : Option Held} (hj : Function.update held i h₀ j = some h) :
    (j = i ∧ h₀ = some h) ∨ (j ≠ i ∧ held j = some h) := by
  by_cases heq : j = i
  · subst heq
    rw [Function.update_self] at hj
    exact .inl ⟨rfl, hj⟩
  · rw [Function.update_of_ne heq] at hj
    exact .inr ⟨heq, hj⟩

theorem Ok.arrive {r : Relay} (h : r.Ok) : r.arrive.Ok :=
  { h with last_lt := fun p hp => Nat.lt_succ_of_lt (h.last_lt p hp) }

theorem Ok.takeUp {r : Relay} (h : r.Ok) {p i : Nat}
    (harrived : r.arrived = p + 1) (hblock : r.block = false) :
    (r.takeUp i p).Ok where
  last_lt q hq := by
    obtain rfl := Option.some.inj hq
    exact harrived.symm ▸ Nat.lt_succ_self p
  sent_le q hq := by
    obtain ⟨l, hl, hle⟩ := h.sent_le q hq
    have := h.last_lt l hl
    exact ⟨p, rfl, by omega⟩
  seen_le j g hg := by
    rcases held_update hg with ⟨_, hnew⟩ | ⟨_, hold⟩
    · obtain rfl := Option.some.inj hnew
      exact Nat.le_refl _
    · exact h.seen_le j g hold
  item_le j g hg := by
    rcases held_update hg with ⟨_, hnew⟩ | ⟨_, hold⟩
    · obtain rfl := Option.some.inj hnew
      exact ⟨p, rfl, Nat.le_refl p⟩
    · obtain ⟨l, hl, hle⟩ := h.item_le j g hold
      have := h.last_lt l hl
      exact ⟨p, rfl, by omega⟩
  taken j g hg htook := by
    rcases held_update hg with ⟨_, hnew⟩ | ⟨_, hold⟩
    · obtain rfl := Option.some.inj hnew
      exact ⟨rfl, rfl⟩
    · -- Nothing was under way that had taken something up.
      rw [(h.taken j g hold htook).1] at hblock
      cases hblock
  one j k g g' hg hg' htook htook' := by
    rcases held_update hg with ⟨rfl, _⟩ | ⟨_, hold⟩
    · rcases held_update hg' with ⟨rfl, _⟩ | ⟨_, hold'⟩
      · rfl
      · rw [(h.taken k g' hold' htook').1] at hblock
        cases hblock
    · rw [(h.taken j g hold htook).1] at hblock
      cases hblock
  joined j g hg hjoined q hq := by
    rcases held_update hg with ⟨_, hnew⟩ | ⟨_, hold⟩
    · obtain rfl := Option.some.inj hnew
      cases hjoined
    · exact h.joined j g hold hjoined q hq

theorem Ok.join {r : Relay} (h : r.Ok) {p i : Nat} (hlast : r.last = some p) :
    (r.join i p).Ok where
  last_lt := h.last_lt
  sent_le := h.sent_le
  seen_le j g hg := by
    rcases held_update hg with ⟨_, hnew⟩ | ⟨_, hold⟩
    · obtain rfl := Option.some.inj hnew
      exact Nat.le_refl _
    · exact h.seen_le j g hold
  item_le j g hg := by
    rcases held_update hg with ⟨_, hnew⟩ | ⟨_, hold⟩
    · obtain rfl := Option.some.inj hnew
      exact ⟨p, hlast, Nat.le_refl p⟩
    · exact h.item_le j g hold
  taken j g hg htook := by
    rcases held_update hg with ⟨_, hnew⟩ | ⟨_, hold⟩
    · obtain rfl := Option.some.inj hnew
      cases htook
    · exact h.taken j g hold htook
  one j k g g' hg hg' htook htook' := by
    rcases held_update hg with ⟨_, hnew⟩ | ⟨_, hold⟩
    · obtain rfl := Option.some.inj hnew
      cases htook
    · rcases held_update hg' with ⟨_, hnew⟩ | ⟨_, hold'⟩
      · obtain rfl := Option.some.inj hnew
        cases htook'
      · exact h.one j k g g' hold hold' htook htook'
  joined j g hg hjoined q hq := by
    rcases held_update hg with ⟨_, hnew⟩ | ⟨_, hold⟩
    · obtain rfl := Option.some.inj hnew
      obtain ⟨l, hl, hle⟩ := h.sent_le q (List.mem_of_mem_take hq)
      rw [hlast, Option.some.injEq] at hl
      rwa [← hl] at hle
    · exact h.joined j g hold hjoined q hq

theorem Ok.quiet {r r' : Relay} (h : r.Ok) (hq : r.Quiet r') : r'.Ok := by
  cases hq with
  | same => exact h
  | arrive => exact h.arrive
  | takeUp i p harrived hblock => exact h.takeUp harrived hblock
  | join i p hlast => exact h.join hlast

theorem Ok.send {r : Relay} (h : r.Ok) {i : Nat} {g : Held}
    (hi : r.held i = some g) : (r.send i g).Ok where
  last_lt := h.last_lt
  sent_le q hq := by
    rcases List.mem_append.1 hq with hold | hnew
    · exact h.sent_le q hold
    · rw [List.mem_singleton.1 hnew]
      exact h.item_le i g hi
  seen_le j g' hg' := by
    rcases held_update hg' with ⟨_, hnew⟩ | ⟨_, hold⟩
    · cases hnew
    · have := h.seen_le j g' hold
      rw [Relay.send, List.length_append]
      omega
  item_le j g' hg' := by
    rcases held_update hg' with ⟨_, hnew⟩ | ⟨_, hold⟩
    · cases hnew
    · exact h.item_le j g' hold
  taken j g' hg' htook := by
    rcases held_update hg' with ⟨_, hnew⟩ | ⟨hne, hold⟩
    · cases hnew
    · obtain ⟨hblock, hlast⟩ := h.taken j g' hold htook
      refine ⟨?_, hlast⟩
      -- Only one has taken something up, and it is not this one.
      have hother : g.tookUp = false := by
        by_contra hthis
        exact hne (h.one j i g' g hold hi htook (by simpa using hthis))
      rw [Relay.send, hother]
      exact hblock
  one j k g' g'' hg' hg'' htook htook' := by
    rcases held_update hg' with ⟨_, hnew⟩ | ⟨_, hold⟩
    · cases hnew
    · rcases held_update hg'' with ⟨_, hnew⟩ | ⟨_, hold'⟩
      · cases hnew
      · exact h.one j k g' g'' hold hold' htook htook'
  joined j g' hg' hjoined q hq := by
    rcases held_update hg' with ⟨_, hnew⟩ | ⟨_, hold⟩
    · cases hnew
    · rw [Relay.send, List.take_append_of_le_length (h.seen_le j g' hold)] at hq
      exact h.joined j g' hold hjoined q hq

/-- A handler passes on nothing older than what has been passed on just if it
took its item up, or nothing newer has been passed on since it joined. -/
theorem Ok.sends_later_iff {τ : Type} [Preorder τ] {time : Nat → τ}
    {r : Relay} (h : r.Ok)
    (htime : ∀ p q, p ≤ q → q < r.arrived → time p ≤ time q) {i : Nat}
    {g : Held} (hi : r.held i = some g) :
    (∀ q ∈ r.sent, time q ≤ time g.item) ↔
      (g.tookUp = false → ∀ q ∈ r.sent.drop g.seen, time q ≤ time g.item) := by
  obtain ⟨l, hl, hle⟩ := h.item_le i g hi
  have hlt := h.last_lt l hl
  constructor
  · intro hall _ q hq
    exact hall q (List.mem_of_mem_drop hq)
  · intro hdrop q hq
    cases htook : g.tookUp with
    | true =>
        obtain ⟨l', hl', hle'⟩ := h.sent_le q hq
        obtain ⟨_, hitem⟩ := h.taken i g hi htook
        rw [hitem, Option.some.injEq] at hl'
        exact htime q g.item (by omega) (by omega)
    | false =>
        rw [← List.take_append_drop g.seen r.sent, List.mem_append] at hq
        rcases hq with hbefore | hsince
        · exact htime q g.item (h.joined i g hi htook q hbefore) (by omega)
        · exact hdrop htook q hsince

end Relay

end IotHome.Lib
