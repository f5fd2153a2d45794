import IotHome.PublicServer.HomePage
import IotHome.Server.App

/-!
# Which browsers get the pulses

A pulse that a `HomePage` forwards is for everybody at the home page. Both
servers keep one socket, the one that connected last, also after it has
closed. `forwards_iff` says over every run when that is everybody: when no
other socket is open as the pulse is forwarded.
-/

namespace IotHome.Server

open IotHome.Lib
open IotHome.PublicServer

/-- In a run of either server every pulse that is forwarded reaches every open
socket just if, whenever one is forwarded, no socket is open but the one that
connected last. -/
theorem forwards_iff (db : DevicesDb) (port : Nat) (es : List AppEvent)
    (homeEvents : List HomeEvent) :
    ((∀ s e s', AppStepOf db port es s e s' →
        s.frontEnd.ReachesAll s'.frontEnd) ↔
      ∀ s e s', AppStepOf db port es s e s' → s.Forwards e →
        s.frontEnd.OnlyLastOpen) ∧
    ((∀ s e s', HomeStepOf homeEvents s e s' →
        s.frontEnd.ReachesAll s'.frontEnd) ↔
      ∀ s e s', HomeStepOf homeEvents s e s' → s.Forwards e →
        s.frontEnd.OnlyLastOpen) := by
  have happ : ∀ s e s', AppStepOf db port es s e s' →
      (s.frontEnd.ReachesAll s'.frontEnd ↔
        (s.Forwards e → s.frontEnd.OnlyLastOpen)) := by
    intro s e s' hstep
    exact reachesAll_iff_of_run App.frontEnd App.Forwards
      (fun _ _ _ h hnot => appStep_quiet h hnot)
      (fun _ _ _ h hforwards => appStep_forwards h hforwards) rfl hstep
  have hhome : ∀ s e s', HomeStepOf homeEvents s e s' →
      (s.frontEnd.ReachesAll s'.frontEnd ↔
        (s.Forwards e → s.frontEnd.OnlyLastOpen)) := by
    intro s e s' hstep
    exact reachesAll_iff_of_run HomePage.frontEnd HomePage.Forwards
      (fun _ _ _ h hnot => homeStep_quiet h hnot)
      (fun _ _ _ h hforwards => homeStep_forwards h hforwards) rfl hstep
  exact ⟨forall₄_congr happ, forall₄_congr hhome⟩

/-- Two browsers come, and the second one leaves before a pulse comes. -/
def secondLeaves : List AppEvent :=
  [.connect, .connect, .close 1,
    .sysMessage (js "\x7b\"type\":\"PULSE\"\x7d") fun _ => true]

/-- The pulse goes to no one. -/
theorem reaches_nobody : ∃ s e s',
    AppStepOf (fun _ => none) 80 (secondLeaves ++ [e]) s e s' ∧
      s.Forwards e ∧ ¬ s.frontEnd.ReachesAll s'.frontEnd := by
  have hend : (secondLeaves.foldlM (appStep (fun _ => none) 80) .start).map
      (fun s => (decide (s.frontEnd.isOpen 0), (s.tasks[1]?).map Task.side,
        (appStep (fun _ => none) 80 s (.resume 1)).map fun s' =>
          (s.frontEnd.sentSince s'.frontEnd).map FeMessage.receiver)) =
      some (true, some .homePage, some [none]) := by
    decide +kernel
  obtain ⟨s, hs, hfacts⟩ := Option.map_eq_some_iff.1 hend
  obtain ⟨hopen, hfacts⟩ := Prod.mk.inj hfacts
  obtain ⟨htask, hsent⟩ := Prod.mk.inj hfacts
  obtain ⟨t, ht, hside⟩ := Option.map_eq_some_iff.1 htask
  obtain ⟨s', hstep, hto⟩ := Option.map_eq_some_iff.1 hsent
  obtain ⟨m, hm, hnone⟩ := List.map_eq_singleton_iff.1 hto
  refine ⟨s, .resume 1, s', ⟨secondLeaves, [], rfl,
    run_iff_foldlM_option.1 hs, hstep⟩, ⟨1, t, rfl, ht, hside⟩, ?_⟩
  intro hall
  rw [FrontEnd.ReachesAll, hm] at hall
  obtain ⟨m', hm', _, hto'⟩ := hall m (List.mem_singleton_self m) 0
    (of_decide_eq_true hopen)
  rw [List.mem_singleton.1 hm', hnone] at hto'
  cases hto'

end IotHome.Server
