import Mathlib.Data.List.Nodup
import Mathlib.Logic.Function.Basic

/-!
# Links

Messages go over links, each of which hands them over in the order they were
sent in. A message is known by its number, which says how many had been sent
before it on all links together. A link can be cut, which loses what is on its
way.

`Links.Ok` is what holds at any time. A message is on its way, or it was
taken, or lost, and not two of these (`Ok.place`); none is taken twice
(`Ok.nodup_taken`), and those of one link are taken in the order they were
sent in (`Ok.order`).
-/

namespace IotHome.Lib

structure Links (κ μ : Type) where
  sent : List (κ × μ)
  flight : κ → List Nat
  taken : List Nat
  lost : List Nat

namespace Links

variable {κ μ : Type}

def empty : Links κ μ := ⟨[], fun _ => [], [], []⟩

/-- The message that comes out of a link next. -/
def next (l : Links κ μ) (k : κ) : Option (Nat × μ) := do
  let i ← (l.flight k).head?
  let m ← l.sent[i]?
  pure (i, m.2)

section

variable [DecidableEq κ]

def send (l : Links κ μ) (k : κ) (m : μ) : Links κ μ :=
  { l with
    sent := l.sent ++ [(k, m)]
    flight := Function.update l.flight k (l.flight k ++ [l.sent.length]) }

def take (l : Links κ μ) (k : κ) (i : Nat) : Links κ μ :=
  { l with
    flight := Function.update l.flight k (l.flight k).tail
    taken := l.taken ++ [i] }

def cut (l : Links κ μ) (k : κ) : Links κ μ :=
  { l with
    flight := Function.update l.flight k []
    lost := l.lost ++ l.flight k }

end

/-- The link a message was sent on. -/
def linkOf (l : Links κ μ) (i : Nat) : Option κ := (l.sent[i]?).map Prod.fst

structure Ok (l : Links κ μ) : Prop where
  in_flight : ∀ k, ∀ i ∈ l.flight k, l.linkOf i = some k
  sorted : ∀ k, (l.flight k).Pairwise (· < ·)
  taken_lt : ∀ i ∈ l.taken, i < l.sent.length
  lost_lt : ∀ i ∈ l.lost, i < l.sent.length
  order : l.taken.Pairwise fun i j => l.linkOf i = l.linkOf j → i < j
  taken_before : ∀ i ∈ l.taken, ∀ k, l.linkOf i = some k →
    ∀ j ∈ l.flight k, i < j
  lost_before : ∀ i ∈ l.lost, ∀ k, l.linkOf i = some k →
    ∀ j ∈ l.flight k, i < j
  apart : ∀ i ∈ l.lost, i ∉ l.taken
  covered : ∀ i k, l.linkOf i = some k →
    i ∈ l.flight k ∨ i ∈ l.taken ∨ i ∈ l.lost

theorem ok_empty : (empty : Links κ μ).Ok where
  in_flight _ _ hi := absurd hi List.not_mem_nil
  sorted _ := .nil
  taken_lt _ hi := absurd hi List.not_mem_nil
  lost_lt _ hi := absurd hi List.not_mem_nil
  order := .nil
  taken_before _ hi := absurd hi List.not_mem_nil
  lost_before _ hi := absurd hi List.not_mem_nil
  apart _ hi := absurd hi List.not_mem_nil
  covered i k hi := by simp [linkOf, empty] at hi

/-! ## What is sent stays sent -/

section

variable [DecidableEq κ]

@[simp] theorem sent_take (l : Links κ μ) (k : κ) (i : Nat) :
    (l.take k i).sent = l.sent := rfl

@[simp] theorem sent_cut (l : Links κ μ) (k : κ) : (l.cut k).sent = l.sent := rfl

@[simp] theorem taken_send (l : Links κ μ) (k : κ) (m : μ) :
    (l.send k m).taken = l.taken := rfl

@[simp] theorem taken_cut (l : Links κ μ) (k : κ) :
    (l.cut k).taken = l.taken := rfl

@[simp] theorem linkOf_take (l : Links κ μ) (k : κ) (i j : Nat) :
    (l.take k i).linkOf j = l.linkOf j := rfl

@[simp] theorem linkOf_cut (l : Links κ μ) (k : κ) (j : Nat) :
    (l.cut k).linkOf j = l.linkOf j := rfl

theorem getElem?_sent_send {l : Links κ μ} {k : κ} {m : μ} {i : Nat}
    {x : κ × μ} :
    (l.send k m).sent[i]? = some x ↔
      l.sent[i]? = some x ∨ (i = l.sent.length ∧ x = (k, m)) := by
  rw [send, List.getElem?_append]
  split
  · next hlt => simp [Nat.ne_of_lt hlt]
  · next hge =>
      have hnone : l.sent[i]? = none := List.getElem?_eq_none (by omega)
      rw [hnone, List.getElem?_singleton]
      split
      · next hzero =>
          have heq : i = l.sent.length := by omega
          simp [heq, eq_comm]
      · next hne =>
          have heq : i ≠ l.sent.length := by omega
          simp [heq]

theorem linkOf_send_of_lt {l : Links κ μ} {k : κ} {m : μ} {i : Nat}
    (h : i < l.sent.length) : (l.send k m).linkOf i = l.linkOf i := by
  rw [linkOf, linkOf, send, List.getElem?_append_left h]

theorem linkOf_send_length (l : Links κ μ) (k : κ) (m : μ) :
    (l.send k m).linkOf l.sent.length = some k := by
  rw [linkOf, send, List.getElem?_concat_length, Option.map_some]

end

theorem lt_of_linkOf {l : Links κ μ} {i : Nat} {k : κ}
    (h : l.linkOf i = some k) : i < l.sent.length := by
  obtain ⟨x, hx, _⟩ := Option.map_eq_some_iff.1 h
  exact (List.getElem?_eq_some_iff.1 hx).1

theorem linkOf_of_getElem? {l : Links κ μ} {i : Nat} {k : κ} {m : μ}
    (h : l.sent[i]? = some (k, m)) : l.linkOf i = some k := by
  rw [linkOf, h, Option.map_some]

theorem Ok.flight_lt {l : Links κ μ} (h : l.Ok) {k : κ} {i : Nat}
    (hi : i ∈ l.flight k) : i < l.sent.length :=
  lt_of_linkOf (h.in_flight k i hi)

/-! ## What the operations keep -/

/-- What comes next is the oldest of what is on its way. -/
theorem next_eq_some {l : Links κ μ} {k : κ} {i : Nat} {m : μ}
    (h : l.next k = some (i, m)) :
    ∃ k' rest, l.flight k = i :: rest ∧ l.sent[i]? = some (k', m) := by
  obtain ⟨i', hhead, h⟩ := Option.bind_eq_some_iff.1 h
  obtain ⟨m', hm, h⟩ := Option.bind_eq_some_iff.1 h
  obtain ⟨rfl, rfl⟩ := Prod.mk.inj (Option.some.inj h)
  obtain ⟨rest, hrest⟩ := List.head?_eq_some_iff.1 hhead
  exact ⟨m'.1, rest, hrest, hm⟩

theorem Ok.sent_of_next {l : Links κ μ} (hok : l.Ok) {k : κ} {i : Nat} {m : μ}
    (h : l.next k = some (i, m)) : l.sent[i]? = some (k, m) := by
  obtain ⟨k', rest, hflight, hsent⟩ := next_eq_some h
  have hk := hok.in_flight k i (hflight ▸ List.mem_cons_self)
  rw [linkOf_of_getElem? hsent] at hk
  rw [hsent, Option.some.inj hk]

section

variable [DecidableEq κ]

/-- What is on its way after a link has been changed. -/
theorem mem_flight_update {flight : κ → List Nat} {k k' : κ} {is : List Nat}
    {j : Nat} (h : j ∈ Function.update flight k is k') :
    (k' = k ∧ j ∈ is) ∨ (k' ≠ k ∧ j ∈ flight k') := by
  by_cases hk : k' = k
  · subst hk
    rw [Function.update_self] at h
    exact .inl ⟨rfl, h⟩
  · rw [Function.update_of_ne hk] at h
    exact .inr ⟨hk, h⟩

theorem Ok.send {l : Links κ μ} (h : l.Ok) (k : κ) (m : μ) :
    (l.send k m).Ok where
  in_flight k' i hi := by
    rcases mem_flight_update hi with ⟨rfl, hmem⟩ | ⟨_, hmem⟩
    · rcases List.mem_append.1 hmem with hold | hnew
      · rw [linkOf_send_of_lt (h.flight_lt hold)]
        exact h.in_flight k' i hold
      · obtain rfl := List.mem_singleton.1 hnew
        exact linkOf_send_length l k' m
    · rw [linkOf_send_of_lt (h.flight_lt hmem)]
      exact h.in_flight k' i hmem
  sorted k' := by
    show (Function.update l.flight k (l.flight k ++ [l.sent.length]) k').Pairwise
      (· < ·)
    by_cases hk : k' = k
    · subst hk
      rw [Function.update_self, List.pairwise_append]
      refine ⟨h.sorted k', List.pairwise_singleton _ _, fun i hi j hj => ?_⟩
      rw [List.mem_singleton.1 hj]
      exact h.flight_lt hi
    · rw [Function.update_of_ne hk]
      exact h.sorted k'
  taken_lt i hi := by
    have hlt := h.taken_lt i hi
    rw [Links.send, List.length_append]
    omega
  lost_lt i hi := by
    have hlt := h.lost_lt i hi
    rw [Links.send, List.length_append]
    omega
  order := by
    refine h.order.imp_of_mem fun {i j} hi hj hij => ?_
    rw [linkOf_send_of_lt (h.taken_lt i hi), linkOf_send_of_lt (h.taken_lt j hj)]
    exact hij
  taken_before i hi k' hk' j hj := by
    rw [linkOf_send_of_lt (h.taken_lt i hi)] at hk'
    rcases mem_flight_update hj with ⟨rfl, hmem⟩ | ⟨_, hmem⟩
    · rcases List.mem_append.1 hmem with hold | hnew
      · exact h.taken_before i hi k' hk' j hold
      · rw [List.mem_singleton.1 hnew]
        exact h.taken_lt i hi
    · exact h.taken_before i hi k' hk' j hmem
  lost_before i hi k' hk' j hj := by
    rw [linkOf_send_of_lt (h.lost_lt i hi)] at hk'
    rcases mem_flight_update hj with ⟨rfl, hmem⟩ | ⟨_, hmem⟩
    · rcases List.mem_append.1 hmem with hold | hnew
      · exact h.lost_before i hi k' hk' j hold
      · rw [List.mem_singleton.1 hnew]
        exact h.lost_lt i hi
    · exact h.lost_before i hi k' hk' j hmem
  apart := h.apart
  covered i k' hi := by
    rcases Nat.lt_or_ge i l.sent.length with hlt | hge
    · rw [linkOf_send_of_lt hlt] at hi
      rcases h.covered i k' hi with hflight | hrest
      · refine .inl ?_
        show i ∈ Function.update l.flight k _ k'
        by_cases hk : k' = k
        · subst hk
          rw [Function.update_self]
          exact List.mem_append_left _ hflight
        · rwa [Function.update_of_ne hk]
      · exact .inr hrest
    · have hlt := lt_of_linkOf hi
      rw [Links.send, List.length_append, List.length_singleton] at hlt
      have heq : i = l.sent.length := by omega
      subst heq
      rw [linkOf_send_length] at hi
      obtain rfl := Option.some.inj hi
      refine .inl ?_
      show _ ∈ Function.update l.flight k _ k
      rw [Function.update_self]
      exact List.mem_append_right _ (List.mem_singleton.2 rfl)

theorem Ok.take {l : Links κ μ} (h : l.Ok) {k : κ} {i : Nat} {m : μ}
    (hnext : l.next k = some (i, m)) : (l.take k i).Ok := by
  obtain ⟨_, rest, hflight, _⟩ := next_eq_some hnext
  have hsorted := h.sorted k
  rw [hflight, List.pairwise_cons] at hsorted
  have hlink : l.linkOf i = some k :=
    h.in_flight k i (hflight ▸ List.mem_cons_self)
  have hmem : ∀ {k' j}, j ∈ (l.take k i).flight k' → j ∈ l.flight k' := by
    intro k' j hj
    rcases mem_flight_update hj with ⟨rfl, hj⟩ | ⟨_, hj⟩
    · exact List.mem_of_mem_tail hj
    · exact hj
  have hafter : ∀ j ∈ (l.take k i).flight k, i < j := by
    intro j hj
    rcases mem_flight_update hj with ⟨_, hj⟩ | ⟨hne, _⟩
    · rw [hflight] at hj
      exact hsorted.1 j hj
    · exact absurd rfl hne
  refine ⟨fun k' j hj => h.in_flight k' j (hmem hj), fun k' => ?_, ?_,
    h.lost_lt, ?_, ?_, fun j hj k' hk' m hm => ?_, fun j hj hjt => ?_, ?_⟩
  · show (Function.update l.flight k (l.flight k).tail k').Pairwise (· < ·)
    by_cases hk : k' = k
    · subst hk
      rw [Function.update_self, hflight]
      exact hsorted.2
    · rw [Function.update_of_ne hk]
      exact h.sorted k'
  · intro j hj
    rcases List.mem_append.1 hj with hold | hnew
    · exact h.taken_lt j hold
    · rw [List.mem_singleton.1 hnew]
      exact lt_of_linkOf hlink
  · show (l.taken ++ [i]).Pairwise _
    rw [List.pairwise_append]
    refine ⟨h.order, List.pairwise_singleton _ _, fun j hj i' hi' hsame => ?_⟩
    obtain rfl := List.mem_singleton.1 hi'
    exact h.taken_before j hj k (hsame.trans hlink) i'
      (hflight ▸ List.mem_cons_self)
  · intro j hj k' hk' n hn
    rcases List.mem_append.1 hj with hold | hnew
    · exact h.taken_before j hold k' hk' n (hmem hn)
    · obtain rfl := List.mem_singleton.1 hnew
      obtain rfl := Option.some.inj (hlink.symm.trans hk')
      exact hafter n hn
  · exact h.lost_before j hj k' hk' m (hmem hm)
  · rcases List.mem_append.1 hjt with hold | hnew
    · exact h.apart j hj hold
    · obtain rfl := List.mem_singleton.1 hnew
      exact Nat.lt_irrefl j (h.lost_before j hj k hlink j
        (hflight ▸ List.mem_cons_self))
  · intro j k' hj
    by_cases heq : j = i
    · exact .inr (.inl (List.mem_append_right _ (List.mem_singleton.2 heq)))
    · rcases h.covered j k' hj with hin | htaken | hlost
      · refine .inl ?_
        show j ∈ Function.update l.flight k _ k'
        by_cases hk : k' = k
        · subst hk
          rw [hflight] at hin
          rw [Function.update_self, hflight]
          exact (List.mem_cons.1 hin).resolve_left heq
        · rwa [Function.update_of_ne hk]
      · exact .inr (.inl (List.mem_append_left _ htaken))
      · exact .inr (.inr hlost)

theorem Ok.cut {l : Links κ μ} (h : l.Ok) (k : κ) : (l.cut k).Ok := by
  have hmem : ∀ {k' j}, j ∈ (l.cut k).flight k' → k' ≠ k ∧ j ∈ l.flight k' := by
    intro k' j hj
    rcases mem_flight_update hj with ⟨_, hj⟩ | hj
    · exact absurd hj List.not_mem_nil
    · exact hj
  refine ⟨fun k' j hj => h.in_flight k' j (hmem hj).2, fun k' => ?_,
    h.taken_lt, fun j hj => ?_, h.order,
    fun j hj k' hk' n hn => h.taken_before j hj k' hk' n (hmem hn).2,
    fun j hj k' hk' n hn => ?_, fun j hj htaken => ?_, fun j k' hj => ?_⟩
  · show (Function.update l.flight k [] k').Pairwise (· < ·)
    by_cases hk : k' = k
    · rw [hk, Function.update_self]
      exact .nil
    · rw [Function.update_of_ne hk]
      exact h.sorted k'
  · rcases List.mem_append.1 hj with hold | hnew
    · exact h.lost_lt j hold
    · exact h.flight_lt hnew
  · rcases List.mem_append.1 hj with hold | hnew
    · exact h.lost_before j hold k' hk' n (hmem hn).2
    · have hk : k' = k := Option.some.inj (hk'.symm.trans (h.in_flight k j hnew))
      exact absurd hk (hmem hn).1
  · rcases List.mem_append.1 hj with hold | hnew
    · exact h.apart j hold htaken
    · exact Nat.lt_irrefl j
        (h.taken_before j htaken k (h.in_flight k j hnew) j hnew)
  · rcases h.covered j k' hj with hin | htaken | hlost
    · by_cases hk : k' = k
      · subst hk
        exact .inr (.inr (List.mem_append_right _ hin))
      · refine .inl ?_
        show j ∈ Function.update l.flight k _ k'
        rwa [Function.update_of_ne hk]
    · exact .inr (.inl htaken)
    · exact .inr (.inr (List.mem_append_left _ hlost))

end

/-! ## What follows -/

theorem Ok.nodup_taken {l : Links κ μ} (h : l.Ok) : l.taken.Nodup := by
  refine h.order.imp fun {i j} hij heq => ?_
  subst heq
  exact Nat.lt_irrefl i (hij rfl)

/-- A message that was sent is at one place. -/
theorem Ok.place {l : Links κ μ} (h : l.Ok) {i : Nat} {k : κ}
    (hi : l.linkOf i = some k) :
    (i ∈ l.flight k ∧ i ∉ l.taken ∧ i ∉ l.lost) ∨
    (i ∉ l.flight k ∧ i ∈ l.taken ∧ i ∉ l.lost) ∨
    (i ∉ l.flight k ∧ i ∉ l.taken ∧ i ∈ l.lost) := by
  have htaken : i ∈ l.taken → i ∉ l.flight k :=
    fun ht hf => Nat.lt_irrefl i (h.taken_before i ht k hi i hf)
  have hlost : i ∈ l.lost → i ∉ l.flight k :=
    fun ht hf => Nat.lt_irrefl i (h.lost_before i ht k hi i hf)
  rcases h.covered i k hi with hf | ht | hl
  · exact .inl ⟨hf, fun ht => htaken ht hf, fun hl => hlost hl hf⟩
  · exact .inr (.inl ⟨htaken ht, ht, fun hl => h.apart i hl ht⟩)
  · exact .inr (.inr ⟨hlost hl, h.apart i hl, hl⟩)

/-! ## Messages that are passed on

`origin` says of a message which other one it passes on. A message is passed
on by the one who takes it, in the order of taking. -/

/-- What stands in this relation in a list that is read off another one. -/
theorem rel_of_filterMap {α β : Type} {f : α → Option β} {R : β → β → Prop}
    {xs : List α} (h : (xs.filterMap f).Pairwise R) {i j : Nat} (hij : i < j)
    {a b : α} (ha : xs[i]? = some a) (hb : xs[j]? = some b) {c d : β}
    (hc : f a = some c) (hd : f b = some d) : R c d := by
  obtain ⟨hi, rfl⟩ := List.getElem?_eq_some_iff.1 ha
  obtain ⟨hj, rfl⟩ := List.getElem?_eq_some_iff.1 hb
  exact List.pairwise_iff_getElem.1 (List.pairwise_filterMap.1 h) i j hi hj hij
    c hc d hd

/-- What is read off in two places is one if nothing is read off twice. -/
theorem eq_of_filterMap {α β : Type} {f : α → Option β} {xs : List α}
    (h : (xs.filterMap f).Nodup) {i j : Nat} {a b : α} (ha : xs[i]? = some a)
    (hb : xs[j]? = some b) {c : β} (hc : f a = some c) (hd : f b = some c) :
    i = j := by
  rcases Nat.lt_trichotomy i j with hlt | heq | hgt
  · exact absurd rfl (rel_of_filterMap h hlt ha hb hc hd)
  · exact heq
  · exact absurd rfl (rel_of_filterMap h hgt hb ha hd hc)

def passedOn (l : Links κ μ) (origin : μ → Option Nat) (j : Nat) :
    Option Nat := do
  let x ← l.sent[j]?
  origin x.2

theorem passedOn_eq {l : Links κ μ} (origin : μ → Option Nat) {j : Nat} {k : κ}
    {m : μ} (h : l.sent[j]? = some (k, m)) : l.passedOn origin j = origin m := by
  rw [passedOn, h]
  rfl

/-- Of two messages that were taken, each passing on another one, these are two
as well; and if both came over one link, and the others did, they came in the
order of the others. -/
theorem Ok.passedOn_pairwise {l : Links κ μ} (h : l.Ok)
    (origin : μ → Option Nat)
    (hrelays : (l.sent.filterMap fun x => origin x.2).Sublist l.taken)
    {js : List Nat} (hjs : js.Sublist l.taken) :
    js.Pairwise fun j j' => ∀ i i', l.passedOn origin j = some i →
      l.passedOn origin j' = some i' → i ≠ i' ∧
        (l.linkOf j = l.linkOf j' → l.linkOf i = l.linkOf i' → i < i') := by
  refine ((h.nodup_taken.and h.order).sublist hjs).imp ?_
  intro j j' hjj i i' hi hi'
  obtain ⟨x, hx, hxi⟩ := Option.bind_eq_some_iff.1 hi
  obtain ⟨x', hx', hxi'⟩ := Option.bind_eq_some_iff.1 hi'
  refine ⟨fun heq => ?_, fun hlink hsame => ?_⟩
  · subst heq
    exact hjj.1 (eq_of_filterMap (h.nodup_taken.sublist hrelays) hx hx' hxi hxi')
  · exact rel_of_filterMap (h.order.sublist hrelays) (hjj.2 hlink) hx hx' hxi hxi'
      hsame

end Links

end IotHome.Lib
