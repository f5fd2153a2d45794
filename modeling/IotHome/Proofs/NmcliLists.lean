import IotHome.Os.NmcliLists

/-!
# What comes back of a list

A field comes back as it was if it had neither colon nor backslash in it; the
address, whose marks are made colons again, if it had no backslash, no `###`
and no `#` right before a colon (`restoreColons_mark_iff`). That goes for all
records of a list at once, and there is no other way for a list to come back
(`lists_iff`): where an escape goes wrong at the end of a field, there are too
few parts for the record.
-/

namespace IotHome.Os

open IotHome.Lib
open IotHome.Server

def hash : UInt16 := unit '#'

theorem colon_ne_backslash : colon ≠ backslash := by decide

theorem hash_ne_colon : hash ≠ colon := by decide

theorem colon_notMem_mark : colon ∉ colonMark := by decide

theorem colonMark_eq : colonMark = [hash, hash, hash] := by decide

/-- A field with its escaped colons marked. -/
def marked (field : JsString) : JsString :=
  markField colon backslash colonMark field

theorem marked_eq_self_iff (field : JsString) :
    marked field = field ↔ colon ∉ field ∧ backslash ∉ field :=
  markField_eq_self_iff (by decide) field

theorem marked_cons (u : UInt16) (field : JsString) :
    marked (u :: field) =
      markUnit colon backslash colonMark u ++ marked field := by
  rw [marked, markField, List.flatMap_cons]
  rfl

theorem colon_notMem_marked (field : JsString) : colon ∉ marked field :=
  sep_notMem_markField colon_ne_backslash colon_notMem_mark field

/-! ## Marks made colons again -/

theorem restoreColons_cases (x : JsString) :
    x = [] ∨
    (∃ y, x = colonMark ++ y ∧ restoreColons x = colon :: restoreColons y) ∨
    ∃ u y, x = u :: y ∧ ¬ colonMark <+: x ∧
      restoreColons x = u :: restoreColons y :=
  replaceAll_cases (by decide) [colon] x

/-- Backslashes stay. -/
theorem count_restoreColons (x : JsString) :
    (restoreColons x).count backslash = x.count backslash := by
  refine replaceAll_induction
    (P := fun x y => y.count backslash = x.count backslash)
    (by decide) rfl (fun y ih => ?_) (fun u y _ ih => ?_) x
  · rw [List.count_append, List.count_append, ih]
    rfl
  · rw [List.count_cons, List.count_cons, ih]

theorem count_marked (field : JsString) :
    (marked field).count backslash = 2 * field.count backslash := by
  induction field with
  | nil => rfl
  | cons u field ih =>
      rw [marked_cons, List.count_append, ih, List.count_cons, markUnit]
      by_cases hcolon : u = colon
      · subst hcolon
        rw [if_pos rfl]
        show 0 + _ = 2 * (_ + 0)
        omega
      · by_cases hback : u = backslash
        · subst hback
          rw [if_neg hcolon, if_pos rfl]
          show 2 + _ = 2 * (_ + 1)
          omega
        · rw [if_neg hcolon, if_neg hback]
          simp [hback]

/-- Neither is there a whole mark left, nor a part of one before a colon. -/
structure Settled (text : JsString) : Prop where
  no_mark : ¬ colonMark <:+: text
  no_part : ¬ [hash, colon] <:+: text

theorem settled_cons {u : UInt16} {text : JsString} :
    Settled (u :: text) ↔
      (¬ colonMark <+: u :: text ∧ ¬ [hash, colon] <+: u :: text) ∧
        Settled text := by
  constructor
  · intro h
    have hmark := h.no_mark
    have hpart := h.no_part
    rw [List.infix_cons_iff, not_or] at hmark hpart
    exact ⟨⟨hmark.1, hpart.1⟩, hmark.2, hpart.2⟩
  · intro h
    refine ⟨?_, ?_⟩
    · rw [List.infix_cons_iff, not_or]
      exact ⟨h.1.1, h.2.no_mark⟩
    · rw [List.infix_cons_iff, not_or]
      exact ⟨h.1.2, h.2.no_part⟩

/-- A `#` that is not part of a mark has at most one more behind it, and then
no colon. -/
theorem settled_hash {y : JsString} (hy : colon ∉ y)
    (hpre : ¬ colonMark <+: hash :: y) :
    ¬ colonMark <+: hash :: restoreColons y ∧
      ¬ [hash, colon] <+: hash :: restoreColons y := by
  rw [colonMark_eq] at hpre ⊢
  rw [List.cons_prefix_cons, List.cons_prefix_cons, not_and, not_and]
  rcases restoreColons_cases y with rfl | ⟨z, rfl, _⟩ |
    ⟨u, z, rfl, _, hrestore⟩
  · exact ⟨fun _ h => by simp [restoreColons, replaceAll_nil] at h,
      fun _ h => by simp [restoreColons, replaceAll_nil] at h⟩
  · exact absurd ⟨hash :: z, by rw [colonMark_eq]; rfl⟩ hpre
  · rw [hrestore, List.cons_prefix_cons, List.cons_prefix_cons]
    refine ⟨fun _ h => ?_, fun _ h => hy (h.1 ▸ List.mem_cons_self)⟩
    obtain ⟨rfl, h⟩ := h
    rcases restoreColons_cases z with rfl | ⟨w, rfl, hw⟩ |
      ⟨v, w, rfl, _, hw⟩
    · simp [restoreColons, replaceAll_nil] at h
    · rw [hw, List.cons_prefix_cons] at h
      exact hash_ne_colon h.1
    · rw [hw, List.cons_prefix_cons] at h
      obtain ⟨rfl, _⟩ := h
      exact hpre ⟨w, rfl⟩

theorem settled_restoreColons {x : JsString} (hx : colon ∉ x) :
    Settled (restoreColons x) := by
  refine replaceAll_induction (P := fun x y => colon ∉ x → Settled y)
    (by decide) (fun _ => ⟨by decide, by decide⟩) (fun y ih hy => ?_)
    (fun u y hpre ih hy => ?_) x hx
  · have hrest := ih fun h => hy (List.mem_append_right _ h)
    rw [List.singleton_append, settled_cons, colonMark_eq,
      List.cons_prefix_cons, List.cons_prefix_cons]
    exact ⟨⟨fun h => hash_ne_colon h.1, fun h => hash_ne_colon h.1⟩, hrest⟩
  · rw [List.mem_cons, not_or] at hy
    rw [settled_cons]
    refine ⟨?_, ih hy.2⟩
    by_cases hu : u = hash
    · subst hu
      exact settled_hash hy.2 hpre
    · rw [colonMark_eq, List.cons_prefix_cons, List.cons_prefix_cons]
      exact ⟨fun h => hu h.1.symm, fun h => hu h.1.symm⟩

/-- Only a `#` or a colon becomes something that begins with a `#`. -/
theorem head_marked {b rest : JsString} (hback : backslash ∉ b)
    (h : marked b = hash :: rest) :
    (∃ c, b = colon :: c) ∨ ∃ c, b = hash :: c ∧ rest = marked c := by
  cases b with
  | nil => cases h
  | cons u c =>
      rw [List.mem_cons, not_or] at hback
      rw [marked_cons, markUnit] at h
      by_cases hcolon : u = colon
      · exact .inl ⟨c, by rw [hcolon]⟩
      · rw [if_neg hcolon, if_neg (Ne.symm hback.1), List.singleton_append,
          List.cons.injEq] at h
        exact .inr ⟨c, by rw [h.1], h.2.symm⟩

/-- A settled text does not become one with a mark that was not there. -/
theorem not_mark_marked {b : JsString} (hback : backslash ∉ b)
    (h : Settled (hash :: b)) : ¬ colonMark <+: hash :: marked b := by
  have hmark := (settled_cons.1 h).1.1
  have hpart := (settled_cons.1 h).1.2
  rw [colonMark_eq, List.cons_prefix_cons]
  intro hpre
  obtain ⟨rest, hrest⟩ := hpre.2
  rcases head_marked hback hrest.symm with ⟨c, rfl⟩ | ⟨c, rfl, hc⟩
  · exact hpart ⟨c, rfl⟩
  · rw [List.mem_cons, not_or] at hback
    rcases head_marked hback.2 hc.symm with ⟨d, rfl⟩ | ⟨d, rfl, _⟩
    · exact (settled_cons.1 (settled_cons.1 h).2).1.2 ⟨d, rfl⟩
    · exact hmark ⟨d, by rw [colonMark_eq]; rfl⟩

theorem restoreColons_marked {b : JsString} (hback : backslash ∉ b)
    (h : Settled b) : restoreColons (marked b) = b := by
  induction b with
  | nil => rfl
  | cons u b ih =>
      have hsettled := (settled_cons.1 h).2
      rw [List.mem_cons, not_or] at hback
      have hrest := ih hback.2 hsettled
      rw [marked_cons, markUnit]
      by_cases hcolon : u = colon
      · rw [if_pos hcolon, restoreColons, replaceAll_match (by decide),
          ← restoreColons, hrest, hcolon]
        rfl
      · rw [if_neg hcolon, if_neg (Ne.symm hback.1), List.singleton_append]
        have hskip : ¬ colonMark <+: u :: marked b := by
          by_cases hhash : u = hash
          · subst hhash
            exact not_mark_marked hback.2 h
          · rw [colonMark_eq, List.cons_prefix_cons]
            exact fun hpre => hhash hpre.1.symm
        rw [restoreColons, replaceAll_skip hskip, ← restoreColons, hrest]

/-- When an address comes back. -/
theorem restoreColons_mark_iff (b : JsString) :
    restoreColons (marked b) = b ↔ backslash ∉ b ∧ Settled b := by
  refine ⟨fun h => ⟨?_, ?_⟩, fun h => restoreColons_marked h.1 h.2⟩
  · have hcount := congrArg (List.count backslash) h
    rw [count_restoreColons, count_marked] at hcount
    exact List.count_eq_zero.1 (by omega)
  · have hsettled := settled_restoreColons (colon_notMem_marked b)
    rwa [h] at hsettled

/-! ## One line -/

/-- Nothing in the record is changed on the way. -/
structure WifiRecord.Plain (w : WifiRecord) : Prop where
  bssid : backslash ∉ w.bssid.text ∧ Settled w.bssid.text
  texts : ∀ t ∈ w.texts, colon ∉ t ∧ backslash ∉ t

def DeviceRecord.Plain (d : DeviceRecord) : Prop :=
  ∀ t ∈ d.texts, colon ∉ t ∧ backslash ∉ t

theorem getLast?_ne_backslash {field : JsString} (h : backslash ∉ field) :
    field.getLast? ≠ some backslash :=
  fun hlast => h (List.mem_of_getLast? hlast)

/-- With no backslash in them, or with as many parts as fields, the parts are
the fields with their marks. -/
theorem lineParts_eq {f : JsString} {rest : List JsString}
    (h : (∀ t ∈ (f :: rest).dropLast, backslash ∉ t) ∨
      (f :: rest).length ≤ (lineParts (nmcliLine (f :: rest))).length) :
    lineParts (nmcliLine (f :: rest)) = (f :: rest).map marked := by
  rcases markedFields_escapedLine colon_ne_backslash colon_notMem_mark f rest
    with ⟨_, hparts⟩ | ⟨⟨t, ht, hlast⟩, hlt⟩
  · exact hparts
  · rcases h with hback | hle
    · exact absurd hlast (getLast?_ne_backslash (hback t ht))
    · exact absurd hlt (Nat.not_lt.2 hle)

theorem length_of_getElem? {α : Type} {xs : List α} {i : Nat} {x : α}
    (h : xs[i]? = some x) : i + 1 ≤ xs.length :=
  (List.getElem?_eq_some_iff.1 h).1

/-- A sign is not changed by the marks. -/
structure PlainSign (sign : JsString) : Prop where
  colon : colon ∉ sign
  backslash : backslash ∉ sign

theorem readWifiLine_iff {w : WifiRecord} {sign : JsString}
    (hsign : PlainSign sign) (huse : (sign == js "*") = w.inUse) :
    readWifiLine (nmcliLine (sign :: w.bssid.text :: w.texts)) = .ok w.net ↔
      w.Plain := by
  have hmarked := (marked_eq_self_iff sign).2 ⟨hsign.colon, hsign.backslash⟩
  have hread : ∀ hparts : lineParts (nmcliLine
      (sign :: w.bssid.text :: w.texts)) =
        (sign :: w.bssid.text :: w.texts).map marked,
      (readWifiLine (nmcliLine (sign :: w.bssid.text :: w.texts)) =
        .ok w.net ↔ w.Plain) := by
    intro hparts
    rw [readWifiLine, hparts]
    show (Except.ok (WifiNet.mk (marked sign == js "*")
      (restoreColons (marked w.bssid.text)) (some (marked w.ssid.text))
      (some (marked w.mode.text)) (some (marked w.chan.text))
      (some (marked w.rate.text)) (some (marked w.signal.text))
      (some (marked w.bars.text)) (some (marked w.security.text))) :
        Except JsError WifiNet) = _ ↔ _
    rw [hmarked, huse, Except.ok.injEq, WifiRecord.net, WifiNet.mk.injEq]
    simp only [Option.some.injEq, restoreColons_mark_iff, marked_eq_self_iff,
      true_and]
    refine ⟨fun h => ⟨h.1, ?_⟩, fun h => ⟨h.bssid, ?_⟩⟩
    · simp only [WifiRecord.texts, List.forall_mem_cons]
      exact ⟨h.2.1, h.2.2.1, h.2.2.2.1, h.2.2.2.2.1, h.2.2.2.2.2.1,
        h.2.2.2.2.2.2.1, h.2.2.2.2.2.2.2, List.forall_mem_nil _⟩
    · have htexts := h.texts
      simp only [WifiRecord.texts, List.forall_mem_cons] at htexts
      obtain ⟨h1, h2, h3, h4, h5, h6, h7, _⟩ := htexts
      exact ⟨h1, h2, h3, h4, h5, h6, h7⟩
  refine ⟨fun h => (hread (lineParts_eq (.inr ?_))).1 h,
    fun h => (hread (lineParts_eq (.inl ?_))).2 h⟩
  · have hsecurity : (lineParts (nmcliLine
        (sign :: w.bssid.text :: w.texts)))[8]? = some w.security.text := by
      rw [readWifiLine] at h
      split at h
      · cases h
      · exact congrArg WifiNet.security (Except.ok.inj h)
    exact length_of_getElem? hsecurity
  · intro t ht
    have ht := (List.dropLast_sublist _).subset ht
    rw [List.mem_cons, List.mem_cons] at ht
    rcases ht with rfl | rfl | ht
    · exact hsign.backslash
    · exact h.bssid.1
    · exact (h.texts t ht).2

theorem readDevLine_iff (d : DeviceRecord) :
    readDevLine d.line = d.netDevice ↔ d.Plain := by
  have hread : ∀ hparts : lineParts d.line = d.texts.map marked,
      (readDevLine d.line = d.netDevice ↔ d.Plain) := by
    intro hparts
    rw [readDevLine, hparts]
    show NetDevice.mk (some (marked d.device.text))
      (some (marked d.type.text)) (some (marked d.state.text))
      (some (marked d.connection.text)) = _ ↔ _
    rw [DeviceRecord.netDevice, NetDevice.mk.injEq]
    simp only [Option.some.injEq, marked_eq_self_iff, DeviceRecord.Plain,
      DeviceRecord.texts, List.forall_mem_cons, List.not_mem_nil,
      false_implies, implies_true, and_true]
  refine ⟨fun h => (hread (lineParts_eq (.inr ?_))).1 h,
    fun h => (hread (lineParts_eq (.inl ?_))).2 h⟩
  · have hconnection : (lineParts d.line)[3]? = some d.connection.text :=
      congrArg NetDevice.connection h
    exact length_of_getElem? hconnection
  · exact fun t ht => (h t ((List.dropLast_sublist _).subset ht)).2

/-! ## The lines of an output -/

/-- The text ends in something that is not trimmed. -/
def EndsFirm (text : JsString) : Prop :=
  ∃ u, text.getLast? = some u ∧ isTrimmed u = false

theorem EndsFirm.append {x y : JsString} (h : EndsFirm y) :
    EndsFirm (x ++ y) := by
  obtain ⟨u, hlast, hu⟩ := h
  exact ⟨u, by rw [List.getLast?_append, hlast]; rfl, hu⟩

theorem EndsFirm.cons {u : UInt16} {y : JsString} (h : EndsFirm y) :
    EndsFirm (u :: y) := EndsFirm.append (x := [u]) h

theorem EndsFirm.ne_nil {x : JsString} (h : EndsFirm x) : x ≠ [] := by
  rintro rfl
  obtain ⟨u, hlast, _⟩ := h
  cases hlast

theorem escapeField_concat (field : JsString) (u : UInt16) :
    escapeField colon backslash (field ++ [u]) =
      escapeField colon backslash field ++
        escapeUnit colon backslash u := by
  rw [escapeField, List.flatMap_append, ← escapeField,
    List.flatMap_singleton]

/-- Behind a colon, a field that ends firm or not at all. -/
theorem endsFirm_colon {field : JsString}
    (h : ∀ u ∈ field.getLast?, isTrimmed u = false) :
    EndsFirm (colon :: escapeField colon backslash field) := by
  rcases List.eq_nil_or_concat field with rfl | ⟨front, u, rfl⟩
  · exact ⟨colon, rfl, by decide⟩
  · rw [List.concat_eq_append] at h ⊢
    have hu := h u (by rw [List.getLast?_concat]; rfl)
    rw [escapeField_concat]
    refine EndsFirm.cons (EndsFirm.append ⟨u, ?_, hu⟩)
    rw [escapeUnit]
    split
    · rfl
    · rfl

theorem endsFirm_line {f g : JsString} {rest : List JsString}
    (h : ∀ t ∈ g :: rest, ∀ u ∈ t.getLast?, isTrimmed u = false) :
    EndsFirm (nmcliLine (f :: g :: rest)) := by
  induction rest generalizing f g with
  | nil =>
      rw [nmcliLine, escapedLine_cons, escapedLine, List.map_singleton,
        List.intercalate_singleton]
      exact (endsFirm_colon (h g List.mem_cons_self)).append
  | cons t rest ih =>
      rw [nmcliLine, escapedLine_cons]
      exact (ih fun s hs => h s (List.mem_cons_of_mem g hs)).cons.append

theorem newline_notMem_escapeField {field : JsString}
    (h : newline ∉ field) : newline ∉ escapeField colon backslash field := by
  intro hmem
  obtain ⟨u, hu, hin⟩ := List.mem_flatMap.1 hmem
  have hback : newline ≠ backslash := by decide
  have hne : newline ≠ u := fun heq => h (heq ▸ hu)
  rw [escapeUnit] at hin
  split at hin
  · simp [hback, hne] at hin
  · simp [hne] at hin

theorem newline_notMem_line {fields : List JsString}
    (h : ∀ t ∈ fields, newline ∉ t) : newline ∉ nmcliLine fields := by
  have hcolon : newline ≠ colon := by decide
  induction fields with
  | nil => exact List.not_mem_nil
  | cons f fields ih =>
      have hf := newline_notMem_escapeField (h f List.mem_cons_self)
      have hrest := ih fun t ht => h t (List.mem_cons_of_mem f ht)
      cases fields with
      | nil =>
          rwa [nmcliLine, escapedLine, List.map_singleton,
            List.intercalate_singleton]
      | cons g rest =>
          rw [nmcliLine, escapedLine_cons, ← nmcliLine, List.mem_append,
            List.mem_cons, not_or, not_or]
          exact ⟨hf, hcolon, hrest⟩

/-- Blanks around a text that begins and ends firm. -/
theorem trimUnits_append {lead core trail : JsString}
    (hlead : ∀ u ∈ lead, isTrimmed u = true)
    (htrail : ∀ u ∈ trail, isTrimmed u = true)
    (hhead : ∃ u, core.head? = some u ∧ isTrimmed u = false)
    (hlast : EndsFirm core) : trimUnits (lead ++ core ++ trail) = core := by
  have hdrop : ∀ {blanks text : JsString},
      (∀ u ∈ blanks, isTrimmed u = true) →
      (∃ u, text.head? = some u ∧ isTrimmed u = false) →
      ∀ rest, (blanks ++ (text ++ rest)).dropWhile isTrimmed =
        text ++ rest := by
    intro blanks text hblanks htext rest
    obtain ⟨u, hu, hfirm⟩ := htext
    rw [List.dropWhile_append_of_pos hblanks]
    cases text with
    | nil => cases hu
    | cons v text =>
        obtain rfl := Option.some.inj hu
        rw [List.cons_append,
          List.dropWhile_cons_of_neg (by rw [hfirm]; decide)]
  have hreverse : ∃ u, core.reverse.head? = some u ∧ isTrimmed u = false := by
    obtain ⟨u, hu, hfirm⟩ := hlast
    exact ⟨u, by rw [List.head?_reverse, hu], hfirm⟩
  have htrail' : ∀ u ∈ trail.reverse, isTrimmed u = true :=
    fun u hu => htrail u (List.mem_reverse.1 hu)
  have hback := hdrop htrail' hreverse []
  rw [List.append_nil] at hback
  show ((((lead ++ core ++ trail).dropWhile isTrimmed).reverse).dropWhile
    isTrimmed).reverse = core
  rw [List.append_assoc, hdrop hlead hhead trail, List.reverse_append, hback,
    List.reverse_reverse]

theorem intercalate_append_head (x y : JsString) (ls : List JsString) :
    [newline].intercalate ((x ++ y) :: ls) =
      x ++ [newline].intercalate (y :: ls) := by
  cases ls with
  | nil => rw [List.intercalate_singleton, List.intercalate_singleton]
  | cons l ls =>
      rw [List.intercalate_cons_cons, List.intercalate_cons_cons]
      simp only [List.append_assoc]

theorem endsFirm_lines {l : JsString} {ls : List JsString}
    (h : ∀ t ∈ l :: ls, EndsFirm t) :
    EndsFirm ([newline].intercalate (l :: ls)) := by
  induction ls generalizing l with
  | nil =>
      rw [List.intercalate_singleton]
      exact h l List.mem_cons_self
  | cons k ls ih =>
      rw [List.intercalate_cons_cons]
      exact (ih fun t ht => h t (List.mem_cons_of_mem l ht)).append

/-- The lines of an output, whose first one can have blanks in front. -/
theorem rawLines_output {lead l : JsString} {ls : List JsString}
    (hlead : ∀ u ∈ lead, isTrimmed u = true)
    (hhead : ∃ u, l.head? = some u ∧ isTrimmed u = false)
    (hfirm : ∀ t ∈ l :: ls, EndsFirm t)
    (hline : ∀ t ∈ l :: ls, newline ∉ t) :
    rawLines (parseData (scriptOutput ((lead ++ l) :: ls))) =
      .ok (l :: ls) := by
  have hcore : ∃ u, ([newline].intercalate (l :: ls)).head? = some u ∧
      isTrimmed u = false := by
    obtain ⟨u, hu, hblank⟩ := hhead
    refine ⟨u, ?_, hblank⟩
    cases l with
    | nil => cases hu
    | cons v l =>
        have hcons := intercalate_append_head [v] l ls
        rw [List.singleton_append] at hcons
        rw [hcons]
        exact hu
  have hraw : trimUnits (scriptOutput ((lead ++ l) :: ls)) =
      [newline].intercalate (l :: ls) := by
    rw [scriptOutput, intercalate_append_head]
    exact trimUnits_append hlead (List.forall_mem_singleton.2 rfl) hcore
      (endsFirm_lines hfirm)
  have hne : scriptOutput ((lead ++ l) :: ls) ≠ [] := by
    simp [scriptOutput]
  rw [parseData, if_neg hne, rawLines]
  simp only [hraw]
  rw [List.splitOn_intercalate _ hline (List.cons_ne_nil l ls),
    List.filter_eq_self.2 fun t ht => by simpa using (hfirm t ht).ne_nil]

theorem rawLines_nil :
    rawLines (parseData (scriptOutput [])) = .ok [] := by
  have hne : scriptOutput [] ≠ [] := by decide
  have hraw : trimUnits (scriptOutput []) = [] := by decide
  rw [parseData, if_neg hne, rawLines]
  simp only [hraw]
  rfl

/-! ## Whole lists -/

/-- The line of a record with a sign of any form. -/
def WifiRecord.lineWith (w : WifiRecord) (sign : JsString) : JsString :=
  nmcliLine (sign :: w.bssid.text :: w.texts)

/-- What `trim` leaves of the sign of the first record. -/
def trimmedSign (inUse : Bool) : JsString := if inUse then js "*" else []

theorem plainSign (inUse : Bool) :
    PlainSign (inUseSign inUse) ∧ PlainSign (trimmedSign inUse) := by
  cases inUse with
  | true => exact ⟨⟨by decide, by decide⟩, by decide, by decide⟩
  | false => exact ⟨⟨by decide, by decide⟩, by decide, by decide⟩

theorem sign_inUse (inUse : Bool) :
    (inUseSign inUse == js "*") = inUse ∧
      (trimmedSign inUse == js "*") = inUse := by
  cases inUse with
  | true => decide
  | false => decide

theorem line_eq (w : WifiRecord) :
    w.line = (if w.inUse then [] else js " ") ++
      w.lineWith (trimmedSign w.inUse) := by
  rw [WifiRecord.line, WifiRecord.lineWith, inUseSign, trimmedSign]
  cases w.inUse with
  | true => rfl
  | false =>
      rw [nmcliLine, nmcliLine, escapedLine_cons, escapedLine_cons]
      rfl

theorem exists_wifiField (w : WifiRecord) :
    ∀ t ∈ w.bssid.text :: w.texts, ∃ f : FieldText, t = f.text := by
  simp only [WifiRecord.texts, List.forall_mem_cons]
  exact ⟨⟨_, rfl⟩, ⟨_, rfl⟩, ⟨_, rfl⟩, ⟨_, rfl⟩, ⟨_, rfl⟩, ⟨_, rfl⟩,
    ⟨_, rfl⟩, ⟨_, rfl⟩, List.forall_mem_nil _⟩

theorem exists_deviceField (d : DeviceRecord) :
    ∀ t ∈ d.texts, ∃ f : FieldText, t = f.text := by
  simp only [DeviceRecord.texts, List.forall_mem_cons]
  exact ⟨⟨_, rfl⟩, ⟨_, rfl⟩, ⟨_, rfl⟩, ⟨_, rfl⟩, List.forall_mem_nil _⟩

theorem lineWith_spec (w : WifiRecord) {sign : JsString}
    (hsign : newline ∉ sign) :
    EndsFirm (w.lineWith sign) ∧ newline ∉ w.lineWith sign := by
  refine ⟨endsFirm_line fun t ht => ?_, newline_notMem_line fun t ht => ?_⟩
  · obtain ⟨f, rfl⟩ := exists_wifiField w t ht
    exact f.last
  · rcases List.mem_cons.1 ht with rfl | ht
    · exact hsign
    · obtain ⟨f, rfl⟩ := exists_wifiField w t ht
      exact f.one_line

theorem deviceLine_spec (d : DeviceRecord) :
    EndsFirm d.line ∧ newline ∉ d.line := by
  have hfield := exists_deviceField d
  refine ⟨endsFirm_line fun t ht => ?_, newline_notMem_line fun t ht => ?_⟩
  · obtain ⟨f, rfl⟩ := hfield t (List.mem_cons_of_mem _ ht)
    exact f.last
  · obtain ⟨f, rfl⟩ := hfield t ht
    exact f.one_line

theorem newline_notMem_sign (inUse : Bool) :
    newline ∉ inUseSign inUse ∧ newline ∉ trimmedSign inUse := by
  cases inUse with
  | true => decide
  | false => decide

/-- The lines of a scan, as they are read. -/
theorem rawLines_wifiScan (w : WifiRecord) (ws : List WifiRecord) :
    rawLines (parseData (wifiScan (w :: ws))) =
      .ok (w.lineWith (trimmedSign w.inUse) ::
        ws.map WifiRecord.line) := by
  have hfirst := lineWith_spec w (newline_notMem_sign w.inUse).2
  have hrest : ∀ t ∈ ws.map WifiRecord.line, EndsFirm t ∧ newline ∉ t := by
    intro t ht
    obtain ⟨v, _, rfl⟩ := List.mem_map.1 ht
    exact lineWith_spec v (newline_notMem_sign v.inUse).1
  rw [wifiScan, List.map_cons, line_eq]
  refine rawLines_output ?_ ?_ (List.forall_mem_cons.2
    ⟨hfirst.1, fun t ht => (hrest t ht).1⟩) (List.forall_mem_cons.2
    ⟨hfirst.2, fun t ht => (hrest t ht).2⟩)
  · cases w.inUse with
    | true => exact List.forall_mem_nil _
    | false => exact List.forall_mem_singleton.2 rfl
  · rw [WifiRecord.lineWith, nmcliLine, escapedLine_cons, trimmedSign]
    cases w.inUse with
    | true => exact ⟨unit '*', rfl, by decide⟩
    | false => exact ⟨colon, rfl, by decide⟩

theorem parseWifiList_iff (ws : List WifiRecord) :
    parseWifiListResponse (parseData (wifiScan ws)) =
        .ok (ws.map WifiRecord.net) ↔
      ∀ w ∈ ws, w.Plain := by
  cases ws with
  | nil =>
      rw [parseWifiListResponse, wifiScan, List.map_nil, rawLines_nil]
      exact iff_of_true rfl (List.forall_mem_nil _)
  | cons w ws =>
      have hline : ∀ v : WifiRecord,
          readWifiLine v.line = .ok v.net ↔ v.Plain := fun v =>
        readWifiLine_iff (plainSign v.inUse).1 (sign_inUse v.inUse).1
      have hfirst : readWifiLine (w.lineWith (trimmedSign w.inUse)) =
          .ok w.net ↔ w.Plain :=
        readWifiLine_iff (plainSign w.inUse).2 (sign_inUse w.inUse).2
      have hrest : (ws.map WifiRecord.line).mapM readWifiLine =
          .ok (ws.map WifiRecord.net) ↔ ∀ v ∈ ws, v.Plain := by
        rw [List.mapM_map]
        refine mapM_eq_ok_map.trans ?_
        exact forall₂_congr fun v _ => hline v
      rw [parseWifiListResponse, rawLines_wifiScan, ok_bind, List.map_cons,
        mapM_cons_eq_ok, hfirst, hrest, List.forall_mem_cons]

/-- A field that does not begin with a blank, with a colon behind it. -/
theorem head_deviceLine (d : DeviceRecord) :
    ∃ u, d.line.head? = some u ∧ isTrimmed u = false := by
  have hhead := d.device.head
  rw [DeviceRecord.line, DeviceRecord.texts, nmcliLine, escapedLine_cons]
  cases htext : d.device.text with
  | nil => exact ⟨colon, rfl, by decide⟩
  | cons u text =>
      rw [htext] at hhead
      rw [escapeField, List.flatMap_cons, escapeUnit]
      split
      · exact ⟨backslash, rfl, by decide⟩
      · exact ⟨u, rfl, hhead u rfl⟩

theorem parseDevList_iff (ds : List DeviceRecord) :
    parseDevList (parseData (ifList ds)) =
        .ok (ds.map DeviceRecord.netDevice) ↔
      ∀ d ∈ ds, d.Plain := by
  cases ds with
  | nil =>
      rw [parseDevList, ifList, List.map_nil, rawLines_nil]
      exact iff_of_true rfl (List.forall_mem_nil _)
  | cons d ds =>
      have hspec : ∀ t ∈ (d :: ds).map DeviceRecord.line,
          EndsFirm t ∧ newline ∉ t := by
        intro t ht
        obtain ⟨v, _, rfl⟩ := List.mem_map.1 ht
        exact deviceLine_spec v
      have hlines := @rawLines_output [] _ _ (List.forall_mem_nil _)
        (head_deviceLine d) (fun t ht => (hspec t ht).1)
        (fun t ht => (hspec t ht).2)
      rw [parseDevList, ifList, List.map_cons, ← List.nil_append d.line,
        hlines, ok_bind, pure_eq_ok, Except.ok.injEq, ← List.map_cons,
        List.map_map, List.map_inj_left]
      exact forall₂_congr fun v _ => readDevLine_iff v

/-- Each list comes back as it was exactly when no field in it is changed on
the way. -/
theorem lists_iff (ws : List WifiRecord) (ds : List DeviceRecord) :
    (parseWifiListResponse (parseData (wifiScan ws)) =
        .ok (ws.map WifiRecord.net) ↔ ∀ w ∈ ws, w.Plain) ∧
      (parseDevList (parseData (ifList ds)) =
        .ok (ds.map DeviceRecord.netDevice) ↔ ∀ d ∈ ds, d.Plain) :=
  ⟨parseWifiList_iff ws, parseDevList_iff ds⟩

/-- A text without blanks at its ends. -/
def plainField (text : JsString) (hline : newline ∉ text)
    (hhead : text.head?.any isTrimmed = false)
    (hlast : text.getLast?.any isTrimmed = false) : FieldText where
  text := text
  one_line := hline
  head u hu := by
    rw [Option.mem_def] at hu
    rwa [hu] at hhead
  last u hu := by
    rw [Option.mem_def] at hu
    rwa [hu] at hlast

/-- A network whose name has a colon in it. -/
def colonRecord : WifiRecord where
  inUse := true
  bssid := plainField (js "00:1B:44:11:3A:B7") (by decide) rfl rfl
  ssid := plainField (js "a:b") (by decide) rfl rfl
  mode := plainField (js "Infra") (by decide) rfl rfl
  chan := plainField (js "6") (by decide) rfl rfl
  rate := plainField (js "270 Mbit/s") (by decide) rfl rfl
  signal := plainField (js "70") (by decide) rfl rfl
  bars := plainField (js "***") (by decide) rfl rfl
  security := plainField (js "WPA2") (by decide) rfl rfl

/-- The network `a:b` is read as `a###b`. -/
theorem not_lists_colon :
    ∃ w : WifiRecord, w.ssid.text = js "a:b" ∧
      parseWifiListResponse (parseData (wifiScan [w])) ≠ .ok [w.net] ∧
      (readWifiLine w.line).toOption.map WifiNet.ssid =
        some (some (js "a###b")) := by
  refine ⟨colonRecord, rfl, fun h => ?_, by decide +kernel⟩
  have hplain :=
    (parseWifiList_iff [colonRecord]).1 h colonRecord List.mem_cons_self
  have hcolon := (hplain.texts (js "a:b") List.mem_cons_self).1
  exact absurd hcolon (by decide)

end IotHome.Os
