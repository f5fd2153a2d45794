import IotHome.Cmd.MainTree
import IotHome.Proofs.CmdRunner
import IotHome.Proofs.HandlerErrors

/-!
# Asking for help

A command line with `help` in it should not do anything. Where `help` comes
before a function it is the function; behind one, the runner calls only what
is marked to take it, and of these only `select` can send something. `select`
looks at the word in front of the last `help`, and takes the empty word for
none. `runSends_help_iff` says that this is the one way in which a help query
sends something.
-/

namespace IotHome.Cmd

open IotHome.Lib
open IotHome.Server

/-! ## Where listed names lead -/

/-- What the tree has, from its root by listed names. -/
def mainNodes : List Nat :=
  [8, 9, 10, 11, 12, 13, 14, 16, 17, 18, 21, 22, 23, 24, 25, 26, 28, 29, 30,
    33, 34]

def mainValues : List Value := mainNodes.map Value.ref

theorem get_mem_mainValues : ∀ v ∈ mainValues, ∀ name ∈ cmdlist mainHeap v,
    mainHeap.get v name ∈ mainValues := by
  decide +kernel

theorem help_notMem_cmdlist : ∀ v ∈ mainValues,
    js "help" ∉ cmdlist mainHeap v := by
  decide +kernel

theorem help_sends_nothing : ∀ v ∈ mainValues,
    ∀ f ∈ mainHeap.function? (mainHeap.get v (js "help")), f ∈ [4, 6] := by
  decide +kernel

theorem takesHelp_mainNodes : ∀ f ∈ mainNodes,
    canBeCalledWithHelp mainHeap f = true →
      f ∈ [getFakeHelpFunction, selectFunction] := by
  decide +kernel

/-- The words from a node to `select`. -/
def toSelect (v : Value) : Option (List JsString) :=
  if v = .ref 8 then some [js "dev", js "ctrl", js "select"]
  else if v = .ref 28 then some [js "ctrl", js "select"]
  else if v = .ref 30 then some [js "select"]
  else none

theorem toSelect_last : ∀ v ∈ mainValues, ∀ name ∈ cmdlist mainHeap v,
    mainHeap.get v name = .ref selectFunction →
      toSelect v = some [name] := by
  decide +kernel

theorem toSelect_cons : ∀ v ∈ mainValues, ∀ name ∈ cmdlist mainHeap v,
    ∀ path ∈ toSelect (mainHeap.get v name),
      toSelect v = some (name :: path) := by
  decide +kernel

theorem function?_eq_some {v : Value} {f : Nat}
    (h : mainHeap.function? v = some f) : v = .ref f := by
  cases v with
  | ref r =>
      rw [JsHeap.function?] at h
      split at h
      · rw [Option.some.inj h]
      · cases h
  | undefined => cases h
  | null => cases h
  | primitive type truthy => cases h
  | str s => cases h

/-- By listed names a line comes to `help`, or to a function of the tree,
then with no `help` among the names. -/
theorem leadsTo_listed {f : Nat} {v : Value} {path : List JsString}
    (hv : v ∈ mainValues) (hleads : LeadsTo mainHeap f v path)
    (hlisted : Listed mainHeap v path) :
    f ∈ [4, 6] ∨ (.ref f ∈ mainValues ∧ js "help" ∉ path ∧
      (f = selectFunction → toSelect v = some path)) := by
  induction hleads with
  | @here v name _ hfun =>
      rcases hlisted with hmem | rfl
      · have hget := function?_eq_some hfun
        have hne : js "help" ≠ name := fun heq =>
          help_notMem_cmdlist v hv (heq ▸ hmem)
        refine .inr ⟨hget ▸ get_mem_mainValues v hv name hmem, by simp [hne],
          fun hf => toSelect_last v hv name hmem (by rw [hget, hf])⟩
      · exact .inl (help_sends_nothing v hv f hfun)
  | @there v name path _ _ hrest ih =>
      obtain ⟨hmem, hlisted⟩ :=
        (listed_cons mainHeap (leadsTo_ne_nil mainHeap hrest)).1 hlisted
      rcases ih (get_mem_mainValues v hv name hmem) hlisted with
        hhelp | ⟨hf, hnot, hselect⟩
      · exact .inl hhelp
      · have hne : js "help" ≠ name := fun heq =>
          help_notMem_cmdlist v hv (heq ▸ hmem)
        refine .inr ⟨hf, by simp [hne, hnot], fun hsel => ?_⟩
        exact toSelect_cons v hv name hmem path (hselect hsel)

/-! ## What `select` sends -/

/-- `select` goes on to its request, and there is a device to send it to. -/
structure SelectGoesOn (app : AppState) (args : List JsString) : Prop where
  notDryRun : (Arg.ofArgs args).hasName (js "--dry-run") = false
  writable : ∀ fields ∈ selectParams (Arg.ofArgs args), ∀ f ∈ fields,
    Writable f.2
  device : ∃ dev, (app.getDeviceList (selectedDeviceMac args)).head? =
    some dev ∧ app.hasUrl dev = true

theorem mapM_stringify_ok {params : List (List (String × JsValue))} :
    (∃ parts, params.mapM stringify = .ok parts) ↔
      ∀ fields ∈ params, ∀ f ∈ fields, Writable f.2 := by
  rw [exists_mapM_ok]
  exact forall₂_congr fun fields _ => stringify_ok

theorem selectSends_ne_nil {app : AppState} {args : List JsString} :
    selectSends app args ≠ [] ↔
      (Arg.ofArgs args).getArgNeedHelp = none ∧ SelectGoesOn app args := by
  constructor
  · intro hsends
    rw [selectSends] at hsends
    split at hsends
    · next query dev others hselect hdev =>
        rw [select] at hselect
        simp only [] at hselect
        split at hselect
        · cases hselect
        · next hneed =>
            split at hselect
            · cases hselect
            · obtain ⟨parts, hparts, hselect⟩ := bind_eq_ok.1 hselect
              split at hselect
              · cases hselect
              · next hdry =>
                  refine ⟨hneed, by simpa using hdry,
                    mapM_stringify_ok.1 ⟨parts, hparts⟩, dev, ?_, ?_⟩
                  · rw [hdev]
                    rfl
                  · by_contra hurl
                    rw [if_neg hurl] at hsends
                    exact hsends rfl
    · exact absurd rfl hsends
  · intro hgoes
    obtain ⟨hneed, hdry, hwritable, dev, hdev, hurl⟩ := hgoes
    obtain ⟨parts, hparts⟩ := mapM_stringify_ok.2 hwritable
    obtain ⟨others, hlist⟩ : ∃ others,
        app.getDeviceList (selectedDeviceMac args) = dev :: others := by
      cases hlist : app.getDeviceList (selectedDeviceMac args) with
      | nil => rw [hlist] at hdev; cases hdev
      | cons d others =>
          rw [hlist] at hdev
          exact ⟨others, by rw [Option.some.inj hdev]⟩
    have hselect : select app.getDeviceList args =
        .ok (.request (joinQueries parts)) := by
      rw [selectedDeviceMac] at hlist
      rw [select]
      simp only [hneed, hlist, hparts, ok_bind, hdry]
      rfl
    rw [selectSends, hselect, hlist]
    simp [hurl]

/-! ## Help queries -/

/-- The names on the way to a function are ones that the trees list. -/
def NamesListed (args : List JsString) : Prop :=
  ∀ f this path rest,
    getExecutor mainHeap mainCmdTree args = some (f, this, rest) →
    args = path ++ rest → Listed mainHeap mainCmdTree path

theorem commandSends_help (app : AppState) {f : Nat} (hf : f ∈ [4, 6])
    (args : List JsString) : commandSends app f args = [] := by
  simp only [List.mem_cons, List.not_mem_nil, or_false] at hf
  rcases hf with rfl | rfl
  · rfl
  · rfl

/-- `select` is behind its names, and is called with what comes after
them. -/
theorem getExecutor_select (rest : List JsString) :
    getExecutor mainHeap mainCmdTree
      (js "dev" :: js "ctrl" :: js "select" :: rest) =
        some (selectFunction, .ref 30, rest) := by
  have hdev : mainHeap.get mainCmdTree (js "dev") = .ref 28 := by
    decide +kernel
  have hctrl : mainHeap.get (.ref 28) (js "ctrl") = .ref 30 := by
    decide +kernel
  have hselect : mainHeap.get (.ref 30) (js "select") = .ref 34 := by
    decide +kernel
  have hdevNode : mainHeap.function? (.ref 28) = none := by decide +kernel
  have hctrlNode : mainHeap.function? (.ref 30) = none := by decide +kernel
  have hfunction : mainHeap.function? (.ref 34) = some 34 := by
    decide +kernel
  simp only [getExecutor, hdev, hdevNode, hctrl, hctrlNode, hselect,
    hfunction]
  rfl

theorem run_select (rest : List JsString) :
    run mainHeap mainCmdTree
      (js "dev" :: js "ctrl" :: js "select" :: rest) =
        .invoked selectFunction (.ref 30) rest := by
  have hassign : canAssign mainHeap selectFunction = true := by
    decide +kernel
  have htakes : canBeCalledWithHelp mainHeap selectFunction = true := by
    decide +kernel
  have hcall : callExecutor mainHeap selectFunction (.ref 30) rest =
      .invoked selectFunction (.ref 30) rest :=
    (callExecutor_iff mainHeap).2 ⟨by decide +kernel, rfl, rfl, rfl⟩
  rw [run, getExecutor_select]
  simp only [hassign, htakes, if_true, hcall, ite_self]

theorem runSends_select (app : AppState) (rest : List JsString) :
    runSends app (js "dev" :: js "ctrl" :: js "select" :: rest) =
      selectSends app rest := by
  rw [runSends, run_select]
  rfl

/-- A help query sends something only if it is a `select` with the empty word
in front of its last `help`. -/
theorem select_of_runSends {app : AppState} {args : List JsString}
    (hhelp : js "help" ∈ args) (hnames : NamesListed args)
    (hsends : runSends app args ≠ []) :
    ∃ rest, args = js "dev" :: js "ctrl" :: js "select" :: rest ∧
      js "help" ∈ rest := by
  rw [runSends] at hsends
  split at hsends
  · next f this rest hrun =>
      obtain ⟨⟨path, hargs, hleads⟩, hcalled⟩ :=
        (run_invoked_iff mainHeap).1 ⟨this, hrun⟩
      obtain ⟨this', hwalk⟩ :=
        (getExecutor_iff mainHeap).2 ⟨path, hargs, hleads⟩
      have hlisted := hnames f this' path rest hwalk hargs
      rcases leadsTo_listed (by decide) hleads hlisted with
        hf | ⟨hf, hnot, hselect⟩
      · exact absurd (commandSends_help app hf rest) hsends
      · have hrest : js "help" ∈ rest := by
          rw [hargs, List.mem_append] at hhelp
          exact hhelp.resolve_left hnot
        have hnode : f ∈ mainNodes := by simpa [mainValues] using hf
        have htakes := takesHelp_mainNodes f hnode (hcalled.takesHelp hrest)
        simp only [List.mem_cons, List.not_mem_nil, or_false] at htakes
        rcases htakes with rfl | rfl
        · exact absurd rfl hsends
        · have hpath := Option.some.inj (hselect rfl)
          rw [← hpath] at hargs
          exact ⟨rest, hargs, hrest⟩
  · exact absurd rfl hsends

theorem exists_last_help {args : List JsString} (h : js "help" ∈ args) :
    ∃ pre post, args = pre ++ js "help" :: post ∧ js "help" ∉ post := by
  obtain ⟨post, pre, hsplit, hnot⟩ :=
    List.eq_append_cons_of_mem (List.mem_reverse.2 h)
  refine ⟨pre.reverse, post.reverse, ?_, by simpa using hnot⟩
  have hrev := congrArg List.reverse hsplit
  simpa using hrev

/-- A help query sends nothing but in one case: a `select` with the empty word
in front of its last `help` goes on as if it were none. -/
theorem runSends_help_iff (app : AppState) {args : List JsString}
    (hhelp : js "help" ∈ args) (hnames : NamesListed args) :
    runSends app args = [] ↔
      ¬ ∃ front post, args = js "dev" :: js "ctrl" :: js "select" ::
          (front ++ [] :: js "help" :: post) ∧ js "help" ∉ post ∧
        SelectGoesOn app (front ++ [] :: js "help" :: post) := by
  rw [← not_iff_not, not_not]
  constructor
  · intro hsends
    obtain ⟨rest, rfl, hrest⟩ := select_of_runSends hhelp hnames hsends
    rw [runSends_select] at hsends
    obtain ⟨hneed, hgoes⟩ := selectSends_ne_nil.1 hsends
    obtain ⟨pre, post, rfl, hnot⟩ := exists_last_help hrest
    obtain ⟨front, rfl⟩ := (getArgNeedHelp_eq_none hnot).1 hneed
    rw [List.append_assoc] at hgoes
    exact ⟨front, post, by rw [List.append_assoc]; rfl, hnot, hgoes⟩
  · intro hcase
    obtain ⟨front, post, rfl, hnot, hgoes⟩ := hcase
    rw [runSends_select]
    refine selectSends_ne_nil.2 ⟨?_, hgoes⟩
    have hneed : (Arg.ofArgs
        ((front ++ [[]]) ++ js "help" :: post)).getArgNeedHelp = none :=
      (getArgNeedHelp_eq_none hnot).2 ⟨front, rfl⟩
    rwa [List.append_assoc] at hneed

theorem namesListed_select (rest : List JsString) :
    NamesListed (js "dev" :: js "ctrl" :: js "select" :: rest) := by
  intro f this path rest' hwalk hargs
  rw [getExecutor_select] at hwalk
  simp only [Option.some.injEq, Prod.mk.injEq] at hwalk
  obtain ⟨_, _, rfl⟩ := hwalk
  have hcancel : [js "dev", js "ctrl", js "select"] ++ rest =
      path ++ rest := hargs
  obtain rfl := List.append_cancel_right hcancel
  exact ⟨by decide +kernel, by decide +kernel, .inl (by decide +kernel)⟩

def deviceNamedA : AppState where
  getDeviceList mac :=
    if mac = js "a" then [⟨some (.str (js "127.0.0.1")), none, none, none⟩]
    else []
  hasUrl _ := true
  sysClient := false

theorem runSends_select_help :
    runSends deviceNamedA [js "dev", js "ctrl", js "select", js "set",
      js "help"] = [] := by
  refine (runSends_help_iff deviceNamedA (by decide)
    (namesListed_select _)).2 ?_
  rintro ⟨front, post, hargs, _⟩
  simp only [List.cons.injEq, true_and] at hargs
  cases front with
  | nil => exact absurd (List.cons.inj hargs).1 (by decide)
  | cons a front =>
      have hlength := congrArg List.length hargs
      simp at hlength
      omega

/-- The empty word in front of `help`, and the pin is set. -/
theorem runSends_empty_help :
    ∃ args, js "help" ∈ args ∧ NamesListed args ∧
      runSends deviceNamedA args = [.request "pin=2&val=1".toList] := by
  refine ⟨[js "dev", js "ctrl", js "select", js "--dev-name=a", js "set",
    js "--pin=2", js "--val=1", [], js "help"], by decide,
    namesListed_select _, ?_⟩
  rw [runSends_select]
  decide +kernel

end IotHome.Cmd
