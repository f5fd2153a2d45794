import IotHome.Firmware.HttpcLifecycle
import IotHome.Proofs.PrintedText

/-!
# However a response is cut

TCP cuts a response into buffers as it likes, and the client reads the status
line and the headers again with each buffer that comes before they are all
there. This says that the cuts do not matter: a search that has found
something finds the same in a longer text (`pbufMemfind_append`), so what was
read of a part is what is read of the whole, and after any number of buffers
the client is where the bytes so far put it (`ReadSoFar`).

That is so if the chain that `headers_fn` has released still has the length of
what is behind the headers (`KeepsLength`), which lwIP does not promise: with
pbufs that it has linked anew, what the client counts there is any number. And
a head has its own `Content-Length` here. Without one, the client looks for it
in as much of the body as is there when the headers end, and then the cuts do
matter.
-/

namespace IotHome.Firmware

open IotHome.Lib

/-! ## Searches in a part of a text -/

section

variable {p r mem : List UInt8} {start i : Nat}

theorem pbufMemfind_eq_some :
    pbufMemfind p mem start = some i ↔
      start ≤ i ∧ i ≤ p.length ∧ mem <+: p.drop i ∧
        ∀ j, start ≤ j → j < i → ¬ mem <+: p.drop j := by
  rw [pbufMemfind, List.range_eq_range', List.drop_range',
    List.find?_range'_eq_some]
  simp only [List.isPrefixOf_iff_prefix, List.mem_range'_1, Nat.mul_one,
    Nat.zero_add, Bool.not_eq_true', ← Bool.not_eq_true]
  constructor
  · intro ⟨hmem, hi, hfirst⟩
    exact ⟨hi.1, by omega, hmem, hfirst⟩
  · intro ⟨hstart, hlen, hmem, hfirst⟩
    exact ⟨hmem, ⟨hstart, by omega⟩, hfirst⟩

theorem pbufMemfind_le (h : pbufMemfind p mem start = some i) :
    i + mem.length ≤ p.length := by
  obtain ⟨_, hlen, hmem, _⟩ := pbufMemfind_eq_some.1 h
  have hle := hmem.length_le
  rw [List.length_drop] at hle
  omega

/-- A text that lies in the first part is there in the first part. -/
theorem prefix_drop_append {j : Nat} (hj : j + mem.length ≤ p.length) :
    mem <+: (p ++ r).drop j ↔ mem <+: p.drop j := by
  rw [List.drop_append_of_le_length (by omega)]
  refine ⟨fun h => ?_, fun h => h.trans (List.prefix_append _ _)⟩
  refine List.prefix_of_prefix_length_le h (List.prefix_append _ _) ?_
  rw [List.length_drop]
  omega

/-- What is found in a part of a text is found in the text. -/
theorem pbufMemfind_append (h : pbufMemfind p mem start = some i) :
    pbufMemfind (p ++ r) mem start = some i := by
  have hle := pbufMemfind_le h
  obtain ⟨hstart, _, hmem, hfirst⟩ := pbufMemfind_eq_some.1 h
  refine pbufMemfind_eq_some.2 ⟨hstart, ?_, ?_, ?_⟩
  · rw [List.length_append]
    omega
  · exact (prefix_drop_append hle).2 hmem
  · intro j hj hlt hmem'
    exact hfirst j hj hlt ((prefix_drop_append (by omega)).1 hmem')

/-- What is found in a text and lies in a part of it is found in the part. -/
theorem pbufMemfind_of_append (h : pbufMemfind (p ++ r) mem start = some i)
    (hle : i + mem.length ≤ p.length) :
    pbufMemfind p mem start = some i := by
  obtain ⟨hstart, _, hmem, hfirst⟩ := pbufMemfind_eq_some.1 h
  refine pbufMemfind_eq_some.2
    ⟨hstart, by omega, (prefix_drop_append hle).1 hmem, ?_⟩
  intro j hj hlt hmem'
  exact hfirst j hj hlt ((prefix_drop_append (by omega)).2 hmem')

end

/-! ## The head of a response -/

/-- A head that the client can read: its status line has a space on either
side of the status, its first empty line is its end, and it says how long the
body is. Both numbers are short enough for the arrays they are copied into,
and for the zero behind them. -/
structure ResponseHead where
  bytes : List UInt8
  version : UInt16
  status : UInt16
  space1 : Nat
  space2 : Nat
  length1 : Nat
  length2 : Nat
  space1_eq : pbufMemfind bytes (asciiBytes " ") 0 = some space1
  space2_eq : pbufMemfind bytes (asciiBytes " ") (space1 + 1) = some space2
  status_eq : httpParseResponseStatus bytes = some (version, status)
  length1_eq :
    pbufMemfind bytes (asciiBytes "Content-Length: ") 0 = some length1
  length2_eq : pbufMemfind bytes (asciiBytes "\r\n") length1 = some length2
  ends : pbufMemfind bytes (asciiBytes "\r\n\r\n") 0 = some (bytes.length - 4)
  status_fits : space2 - space1 - 1 < 10
  length_fits : length2 - length1 - 16 < 16

/-- The text of the status, where the second space is or is not there yet. -/
def statusNum (p : List UInt8) (space1 : Nat) (stop : Nat) : List UInt8 :=
  (p.drop (space1 + 1)).take (stop - space1 - 1)

/-- What a status line has to have. -/
theorem httpParseResponseStatus_eq_some {p : List UInt8}
    {version status : UInt16} :
    httpParseResponseStatus p = some (version, status) ↔
      ∃ end1 space1, pbufMemfind p (asciiBytes "\r\n") 0 = some end1 ∧
        pbufMemfind p (asciiBytes " ") 0 = some space1 ∧
        (asciiBytes "HTTP/" <+: p ∧ pbufGetAt p 6 = '.'.toUInt8) ∧
        let stop := (pbufMemfind p (asciiBytes " ") (space1 + 1)).getD end1
        (statusNum p space1 stop).length = stop - space1 - 1 ∧
          0 < atoiBytes (statusNum p space1 stop) ∧
          atoiBytes (statusNum p space1 stop) ≤ 0xFFFF ∧
          version = (((pbufGetAt p 5).toUInt16 - '0'.toUInt8.toUInt16) <<< 8 |||
            ((pbufGetAt p 7).toUInt16 - '0'.toUInt8.toUInt16)) ∧
          status = UInt16.ofNat (atoiBytes (statusNum p space1 stop)).toNat :=
    by
  constructor
  · intro h
    obtain ⟨end1, hend, h⟩ := Option.bind_eq_some_iff.1 h
    obtain ⟨space1, hspace, h⟩ := Option.bind_eq_some_iff.1 h
    refine ⟨end1, space1, hend, hspace, ?_⟩
    split at h
    · next hhttp =>
        refine ⟨⟨List.isPrefixOf_iff_prefix.1 hhttp.1, hhttp.2⟩, ?_⟩
        cases hstop : pbufMemfind p (asciiBytes " ") (space1 + 1) with
        | none =>
            simp only [hstop] at h
            split at h
            · next hok =>
                obtain ⟨rfl, rfl⟩ := Prod.mk.inj (Option.some.inj h)
                exact ⟨hok.1, hok.2.1, hok.2.2, rfl, rfl⟩
            · cases h
        | some space2 =>
            simp only [hstop] at h
            split at h
            · next hok =>
                obtain ⟨rfl, rfl⟩ := Prod.mk.inj (Option.some.inj h)
                exact ⟨hok.1, hok.2.1, hok.2.2, rfl, rfl⟩
            · cases h
    · cases h
  · intro ⟨end1, space1, hend, hspace, hhttp, hlen, hpos, hle, hversion,
      hstatus⟩
    refine Option.bind_eq_some_iff.2 ⟨end1, hend,
      Option.bind_eq_some_iff.2 ⟨space1, hspace, ?_⟩⟩
    rw [if_pos ⟨List.isPrefixOf_iff_prefix.2 hhttp.1, hhttp.2⟩]
    cases hstop : pbufMemfind p (asciiBytes " ") (space1 + 1) with
    | none =>
        rw [hstop] at hlen hpos hle hstatus
        rw [hversion, hstatus]
        exact if_pos ⟨hlen, hpos, hle⟩
    | some space2 =>
        rw [hstop] at hlen hpos hle hstatus
        rw [hversion, hstatus]
        exact if_pos ⟨hlen, hpos, hle⟩

theorem statusNum_append {p r : List UInt8} {space1 stop : Nat}
    (hstart : space1 + 1 ≤ p.length) (hstop : stop ≤ p.length) :
    statusNum (p ++ r) space1 stop = statusNum p space1 stop := by
  rw [statusNum, statusNum, List.drop_append_of_le_length hstart]
  refine List.take_append_of_le_length ?_
  rw [List.length_drop]
  omega

theorem pbufGetAt_append {p r : List UInt8} {offset : Nat}
    (h : offset < p.length) :
    pbufGetAt (p ++ r) offset = pbufGetAt p offset := by
  rw [pbufGetAt, pbufGetAt, List.getD_eq_getElem?_getD,
    List.getD_eq_getElem?_getD, List.getElem?_append_left h]

/-- The status line ends behind the version. -/
theorem end1_ge {p : List UInt8} {end1 : Nat}
    (hhttp : asciiBytes "HTTP/" <+: p) (hdot : pbufGetAt p 6 = '.'.toUInt8)
    (hend : asciiBytes "\r\n" <+: p.drop end1) : 7 ≤ end1 := by
  obtain ⟨t, rfl⟩ := hhttp
  match t with
  | [] => exact absurd hdot (by decide)
  | [_] =>
      have hzero : (0 : UInt8) = '.'.toUInt8 := hdot
      exact absurd hzero (by decide)
  | x :: y :: t =>
      obtain rfl : y = '.'.toUInt8 := hdot
      by_cases hlt : 7 ≤ end1
      · exact hlt
      · have hcases : end1 = 0 ∨ end1 = 1 ∨ end1 = 2 ∨ end1 = 3 ∨ end1 = 4 ∨
            end1 = 5 ∨ end1 = 6 := by omega
        rcases hcases with rfl | rfl | rfl | rfl | rfl | rfl | rfl <;>
          simp [asciiBytes, Char.toUInt8] at hend

theorem atoiBytes_append {cs rest : List UInt8} (hpos : 0 < atoiBytes cs)
    (hrest : ∀ c ∈ rest.head?, (Char.ofNat c.toNat).isDigit = false) :
    atoiBytes (cs ++ rest) = atoiBytes cs := by
  have hread : 0 < readInt (cs.map fun b => Char.ofNat b.toNat) := by
    rw [atoiBytes, clampInt32] at hpos
    omega
  rw [atoiBytes, atoiBytes, List.map_append, readInt_append hread]
  intro c hc
  rw [List.head?_map] at hc
  obtain ⟨b, hb, rfl⟩ := Option.map_eq_some_iff.1 hc
  exact hrest b hb

namespace ResponseHead

variable (head : ResponseHead) {q r : List UInt8}

/-- Where the second space is yet to come, behind the end of the line, the
number up to that end is read as the one up to the space. -/
theorem statusNum_of_line (hq : head.bytes = q ++ r) {end1 : Nat}
    (hspace : head.space1 + 1 ≤ q.length)
    (hend : pbufMemfind q (asciiBytes "\r\n") 0 = some end1)
    (hstop : pbufMemfind q (asciiBytes " ") (head.space1 + 1) = none)
    (hpos : 0 < atoiBytes (statusNum q head.space1 end1)) :
    atoiBytes (statusNum head.bytes head.space1 head.space2) =
      atoiBytes (statusNum q head.space1 end1) := by
  have hend₂ : end1 + 2 ≤ q.length := pbufMemfind_le hend
  have hlate : q.length ≤ head.space2 := by
    by_cases hle₂ : head.space2 + 1 ≤ q.length
    · have hfound := pbufMemfind_of_append (hq ▸ head.space2_eq) hle₂
      rw [hfound] at hstop
      cases hstop
    · omega
  have hline : head.space1 + 1 < end1 := by
    by_cases hne : head.space1 + 1 < end1
    · exact hne
    · have hnil : statusNum q head.space1 end1 = [] := by
        rw [statusNum, Nat.sub_sub, Nat.sub_eq_zero_of_le (by omega),
          List.take_zero]
      rw [hnil] at hpos
      exact absurd hpos (by decide)
  have hmem := (pbufMemfind_eq_some.1 (pbufMemfind_append (r := r)
    hend)).2.2.1
  rw [← hq] at hmem
  obtain ⟨rest, hrest⟩ := hmem
  have hbytes : statusNum head.bytes head.space1 end1 =
      statusNum q head.space1 end1 := by
    rw [hq, statusNum_append hspace (by omega)]
  have hsplit : statusNum head.bytes head.space1 head.space2 =
      statusNum q head.space1 end1 ++
        (head.bytes.drop end1).take (head.space2 - end1) := by
    rw [← hbytes, statusNum, statusNum]
    have hlen : head.space2 - head.space1 - 1 =
        (end1 - head.space1 - 1) + (head.space2 - end1) := by omega
    have hdrop : (head.bytes.drop (head.space1 + 1)).drop
        (end1 - head.space1 - 1) = head.bytes.drop end1 := by
      rw [List.drop_drop]
      congr 1
      omega
    rw [hlen, List.take_add, hdrop]
  rw [hsplit, atoiBytes_append hpos]
  intro c hc
  rw [← hrest] at hc
  have hsucc : head.space2 - end1 = (head.space2 - end1 - 1) + 1 := by omega
  rw [hsucc] at hc
  obtain rfl : 13 = c := Option.some.inj hc
  decide

/-- What is read of the status line in a part of the head is what is there. -/
theorem status_of_part (hq : head.bytes = q ++ r) {version status : UInt16}
    (h : httpParseResponseStatus q = some (version, status)) :
    version = head.version ∧ status = head.status := by
  obtain ⟨end1, space1, hend, hspace, hhttp, hlen, hpos, hle, hversion,
    hstatus⟩ := httpParseResponseStatus_eq_some.1 h
  obtain ⟨end1', space1', _, hspace', _, _, _, _, hversion', hstatus'⟩ :=
    httpParseResponseStatus_eq_some.1 head.status_eq
  obtain rfl := Option.some.inj (hspace'.symm.trans head.space1_eq)
  rw [head.space2_eq] at hstatus'
  have hspace₁ := pbufMemfind_append (r := r) hspace
  rw [← hq, head.space1_eq] at hspace₁
  obtain rfl := Option.some.inj hspace₁
  have hend₂ : end1 + 2 ≤ q.length := pbufMemfind_le hend
  have hspace₂ : head.space1 + 1 ≤ q.length := pbufMemfind_le hspace
  have hge := end1_ge hhttp.1 hhttp.2 (pbufMemfind_eq_some.1 hend).2.2.1
  have hread : atoiBytes (statusNum head.bytes head.space1 head.space2) =
      atoiBytes (statusNum q head.space1
        ((pbufMemfind q (asciiBytes " ") (head.space1 + 1)).getD end1)) := by
    cases hstop : pbufMemfind q (asciiBytes " ") (head.space1 + 1) with
    | some stop =>
        have hfound := pbufMemfind_append (r := r) hstop
        rw [← hq, head.space2_eq] at hfound
        obtain rfl := Option.some.inj hfound
        have hle₂ : head.space2 + 1 ≤ q.length := pbufMemfind_le hstop
        rw [hq, statusNum_append hspace₂ (by omega)]
        rfl
    | none =>
        rw [hstop] at hpos
        exact head.statusNum_of_line hq hspace₂ hend hstop hpos
  refine ⟨?_, ?_⟩
  · rw [hversion, hversion', hq, pbufGetAt_append (by omega),
      pbufGetAt_append (by omega)]
  · rw [hstatus, hstatus', ← hread]
    rfl

/-- It is all there with the head, whatever comes behind. -/
theorem status_of_append :
    httpParseResponseStatus (head.bytes ++ r) =
      some (head.version, head.status) := by
  obtain ⟨end1, space1, hend, hspace, hhttp, hlen, hpos, hle, hversion,
    hstatus⟩ := httpParseResponseStatus_eq_some.1 head.status_eq
  obtain rfl := Option.some.inj (hspace.symm.trans head.space1_eq)
  rw [head.space2_eq, Option.getD_some] at hlen hpos hle hstatus
  have hend₂ : end1 + 2 ≤ head.bytes.length := pbufMemfind_le hend
  have hspace₂ : head.space2 + 1 ≤ head.bytes.length :=
    pbufMemfind_le head.space2_eq
  have hspace₁ : head.space1 + 1 ≤ head.bytes.length := pbufMemfind_le hspace
  have hge := end1_ge hhttp.1 hhttp.2 (pbufMemfind_eq_some.1 hend).2.2.1
  refine httpParseResponseStatus_eq_some.2 ⟨end1, head.space1,
    pbufMemfind_append hend, pbufMemfind_append hspace,
    ⟨hhttp.1.trans (List.prefix_append _ _), ?_⟩, ?_⟩
  · rw [pbufGetAt_append (by omega)]
    exact hhttp.2
  · have hnum : statusNum (head.bytes ++ r) head.space1 head.space2 =
        statusNum head.bytes head.space1 head.space2 :=
      statusNum_append hspace₁ (by omega)
    rw [pbufMemfind_append head.space2_eq, Option.getD_some,
      pbufGetAt_append (by omega), pbufGetAt_append (by omega)]
    simp only [hnum]
    exact ⟨hlen, hpos, hle, hversion, hstatus⟩

theorem headers_of_part (hq : head.bytes = q ++ r) (hr : r ≠ []) :
    httpWaitHeaders q = none := by
  cases hfound : pbufMemfind q (asciiBytes "\r\n\r\n") 0 with
  | none =>
      rw [httpWaitHeaders, hfound]
      rfl
  | some end1 =>
      have hle : end1 + 4 ≤ q.length := pbufMemfind_le hfound
      have hwhole := pbufMemfind_append (r := r) hfound
      rw [← hq, head.ends] at hwhole
      have hend := Option.some.inj hwhole
      have hpos := List.length_pos_iff.2 hr
      rw [hq, List.length_append] at hend
      omega

theorem contentLength_append :
    contentLength (head.bytes ++ r) = contentLength head.bytes := by
  have hlength₁ : head.length1 + 16 ≤ head.bytes.length :=
    pbufMemfind_le head.length1_eq
  have hlength₂ : head.length2 + 2 ≤ head.bytes.length :=
    pbufMemfind_le head.length2_eq
  have htake : ((head.bytes ++ r).drop (head.length1 + 16)).take
        (head.length2 - head.length1 - 16) =
      (head.bytes.drop (head.length1 + 16)).take
        (head.length2 - head.length1 - 16) := by
    rw [List.drop_append_of_le_length hlength₁]
    refine List.take_append_of_le_length ?_
    rw [List.length_drop]
    omega
  rw [contentLength, contentLength, pbufMemfind_append head.length1_eq,
    head.length1_eq]
  simp only
  rw [pbufMemfind_append head.length2_eq, head.length2_eq]
  simp only [htake]

theorem headers_of_append :
    httpWaitHeaders (head.bytes ++ r) =
      some (contentLength head.bytes, head.bytes.length) := by
  have hle : head.bytes.length - 4 + 4 ≤ head.bytes.length :=
    pbufMemfind_le head.ends
  rw [httpWaitHeaders, pbufMemfind_append head.ends, contentLength_append]
  show some (_, head.bytes.length - 4 + 4) = _
  rw [Nat.sub_add_cancel (by omega)]

end ResponseHead

/-! ## Buffer by buffer -/

/-- Where the client is when it has received these buffers of a response. -/
structure Httpc.ReadSoFar (s : Httpc) (head : ResponseHead)
    (q : List Pbuf) : Prop where
  waiting : (chainBytes q).length < head.bytes.length →
    s.parseState ≠ .rxData ∧ s.rxHdrs = q ∧ s.rxContentLen = 0 ∧
      (s.parseState = .waitHeaders →
        s.rxHttpVersion = head.version ∧ s.rxStatus = head.status)
  reading : head.bytes.length ≤ (chainBytes q).length →
    s.parseState = .rxData ∧
      s.rxHttpVersion = head.version ∧ s.rxStatus = head.status ∧
      s.hdrContentLen = contentLength head.bytes ∧
      s.rxContentLen =
        UInt32.ofNat ((chainBytes q).length - head.bytes.length)

/-- What the client counts of a chain that has been released, behind the
headers, is what came there. -/
def StaleChains.KeepsLength (stale : StaleChains) (q : List Pbuf)
    (totalHeaderLen : Nat) : Prop :=
  (if (stale q totalHeaderLen).chain = [] then 0
    else (stale q totalHeaderLen).totLen) =
      (chainBytes q).length - totalHeaderLen

/-- The head is all there with the buffer `p`, and was not before. -/
structure ResponseHead.EndsIn (head : ResponseHead) (q p : List Pbuf) :
    Prop where
  before : (chainBytes q).length < head.bytes.length
  after : head.bytes.length ≤ (chainBytes (q ++ p)).length

theorem chainBytes_append (p q : List Pbuf) :
    chainBytes (p ++ q) = chainBytes p ++ chainBytes q := by
  simp [chainBytes]

theorem keep_spec (s : Httpc) (p : List Pbuf) :
    (s.keep p).rxHdrs = s.rxHdrs ++ p ∧
      (s.keep p).parseState = s.parseState ∧
      (s.keep p).rxHttpVersion = s.rxHttpVersion ∧
      (s.keep p).rxStatus = s.rxStatus ∧
      (s.keep p).rxContentLen = s.rxContentLen := by
  rw [Httpc.keep]
  split
  · next hnil => simp [hnil]
  · exact ⟨rfl, rfl, rfl, rfl, rfl⟩

/-- The status line has been read, or is looked for. -/
theorem firstLine_spec (s : Httpc) :
    s.firstLine.rxHdrs = s.rxHdrs ∧
      s.firstLine.rxContentLen = s.rxContentLen ∧
      (s.parseState ≠ .waitFirstLine → s.firstLine = s) ∧
      (s.parseState = .waitFirstLine →
        ∀ version status, httpParseResponseStatus (chainBytes s.rxHdrs) =
            some (version, status) →
          s.firstLine.parseState = .waitHeaders ∧
            s.firstLine.rxHttpVersion = version ∧
            s.firstLine.rxStatus = status) ∧
      (s.parseState = .waitFirstLine →
        httpParseResponseStatus (chainBytes s.rxHdrs) = none →
          s.firstLine.parseState = .waitFirstLine) := by
  rw [Httpc.firstLine]
  split
  · next hfirst =>
      cases hparsed : httpParseResponseStatus (chainBytes s.rxHdrs) with
      | none =>
          exact ⟨rfl, rfl, fun hne => absurd hfirst hne,
            fun _ _ _ hsome => (by cases hsome), fun _ _ => hfirst⟩
      | some found =>
          refine ⟨rfl, rfl, fun hne => absurd hfirst hne,
            fun _ version status hsome => ?_, fun _ hnone => (by cases hnone)⟩
          obtain ⟨rfl, rfl⟩ := Prod.mk.inj (Option.some.inj hsome)
          exact ⟨rfl, rfl, rfl⟩
  · next hne =>
      exact ⟨rfl, rfl, fun _ => rfl, fun heq => absurd heq hne,
        fun heq => absurd heq hne⟩

/-- What the headers leave: what is found behind them is of the body. -/
theorem headersDone_spec (stale : StaleChains) (s : Httpc) (len : UInt32)
    (total : Nat) (hkeeps : stale.KeepsLength s.rxHdrs total) :
    let done := s.headersDone stale len total
    done.parseState = .rxData ∧ done.rxHttpVersion = s.rxHttpVersion ∧
      done.rxStatus = s.rxStatus ∧ done.hdrContentLen = len ∧
      done.rxContentLen = s.rxContentLen +
        UInt32.ofNat ((chainBytes s.rxHdrs).length - total) := by
  rw [StaleChains.KeepsLength] at hkeeps
  simp only [Httpc.headersDone, Httpc.hideHeaders]
  split
  · next hnil =>
      have hnone : (stale s.rxHdrs total).chain = [] := hnil
      rw [← hkeeps, if_pos hnone]
      exact ⟨rfl, rfl, rfl, rfl, (UInt32.add_zero _).symm⟩
  · next hbehind =>
      have hsome : (stale s.rxHdrs total).chain ≠ [] := hbehind
      rw [← hkeeps, if_neg hsome]
      exact ⟨rfl, rfl, rfl, rfl, rfl⟩

variable {stale : StaleChains} {s : Httpc} {head : ResponseHead}
  {q : List Pbuf}

/-- A buffer after which the head is not all there. -/
theorem Httpc.ReadSoFar.recv_part (h : s.ReadSoFar head q) {p : List Pbuf}
    {r : List UInt8} (hr : r ≠ [])
    (hhead : head.bytes = chainBytes (q ++ p) ++ r) :
    (httpcTcpRecv stale s p).ReadSoFar head (q ++ p) := by
  have hlen : (chainBytes (q ++ p)).length < head.bytes.length := by
    have hpos := List.length_pos_iff.2 hr
    rw [hhead]
    simp only [List.length_append]
    omega
  have hshort : (chainBytes q).length < head.bytes.length := by
    rw [chainBytes_append, List.length_append] at hlen
    omega
  obtain ⟨hstate, hhdrs, hzero, hstatus⟩ := h.waiting hshort
  obtain ⟨hkeep, hkstate, hkversion, hkstatus, hklen⟩ := keep_spec s p
  have hkept : (s.keep p).rxHdrs = q ++ p := by rw [hkeep, hhdrs]
  obtain ⟨hfhdrs, hflen, hfsame, hfsome, hfnone⟩ := firstLine_spec (s.keep p)
  rw [hkept] at hfsome hfnone
  have hfirst : (s.keep p).firstLine.parseState ≠ .rxData ∧
      ((s.keep p).firstLine.parseState = .waitHeaders →
        (s.keep p).firstLine.rxHttpVersion = head.version ∧
          (s.keep p).firstLine.rxStatus = head.status) := by
    by_cases hfirst : (s.keep p).parseState = .waitFirstLine
    · cases hparsed : httpParseResponseStatus (chainBytes (q ++ p)) with
      | none =>
          rw [hfnone hfirst hparsed]
          exact ⟨by decide, fun hne => by cases hne⟩
      | some found =>
          obtain ⟨version, status⟩ := found
          obtain ⟨hwait, hversion, hstatus⟩ :=
            hfsome hfirst version status hparsed
          rw [hwait, hversion, hstatus]
          exact ⟨by decide, fun _ => head.status_of_part hhead hparsed⟩
    · rw [hfsame hfirst, hkstate, hkversion, hkstatus]
      exact ⟨hstate, hstatus⟩
  have hrecv : (httpcTcpRecv stale s p).parseState =
        (s.keep p).firstLine.parseState ∧
      (httpcTcpRecv stale s p).rxHdrs = (s.keep p).firstLine.rxHdrs ∧
      (httpcTcpRecv stale s p).rxContentLen =
        (s.keep p).firstLine.rxContentLen ∧
      (httpcTcpRecv stale s p).rxHttpVersion =
        (s.keep p).firstLine.rxHttpVersion ∧
      (httpcTcpRecv stale s p).rxStatus = (s.keep p).firstLine.rxStatus := by
    rw [httpcTcpRecv, if_neg hstate, Httpc.headers, hfhdrs, hkept,
      head.headers_of_part hhead hr]
    split
    · exact ⟨rfl, hfhdrs.trans hkept, rfl, rfl, rfl⟩
    · exact ⟨rfl, hfhdrs.trans hkept, rfl, rfl, rfl⟩
  obtain ⟨hrstate, hrhdrs, hrlen, hrversion, hrstatus⟩ := hrecv
  refine ⟨fun _ => ?_, fun hle => by omega⟩
  rw [hrstate, hrhdrs, hrlen, hrversion, hrstatus, hfhdrs, hkept, hflen,
    hklen]
  exact ⟨hfirst.1, rfl, hzero, hfirst.2⟩

/-- The buffer with which the head is all there. -/
theorem Httpc.ReadSoFar.recv_head (h : s.ReadSoFar head q) {p : List Pbuf}
    {r : List UInt8} (hends : head.EndsIn q p)
    (hwhole : chainBytes (q ++ p) = head.bytes ++ r)
    (hkeeps : stale.KeepsLength (q ++ p) head.bytes.length) :
    (httpcTcpRecv stale s p).ReadSoFar head (q ++ p) := by
  obtain ⟨hstate, hhdrs, hzero, hstatus⟩ := h.waiting hends.before
  obtain ⟨hkeep, hkstate, hkversion, hkstatus, hklen⟩ := keep_spec s p
  have hkept : (s.keep p).rxHdrs = q ++ p := by rw [hkeep, hhdrs]
  obtain ⟨hfhdrs, hflen, hfsame, hfsome, _⟩ := firstLine_spec (s.keep p)
  rw [hkept, hwhole] at hfsome
  have hfirst : (s.keep p).firstLine.parseState = .waitHeaders ∧
      (s.keep p).firstLine.rxHttpVersion = head.version ∧
      (s.keep p).firstLine.rxStatus = head.status := by
    cases hs : s.parseState with
    | waitFirstLine =>
        exact hfsome (hkstate.trans hs) _ _ head.status_of_append
    | waitHeaders =>
        rw [hfsame (by rw [hkstate, hs]; decide), hkstate, hkversion,
          hkstatus]
        exact ⟨hs, hstatus hs⟩
    | rxData => exact absurd hs hstate
  obtain ⟨hwait, hversion, hstatus⟩ := hfirst
  let looks := (s.keep p).firstLine.did (uses (s.keep p).firstLine.rxHdrs)
  have hlooks : looks.rxHdrs = q ++ p := hfhdrs.trans hkept
  obtain ⟨hdstate, hdversion, hdstatus, hdlen, hdcount⟩ :=
    headersDone_spec stale looks (contentLength head.bytes)
      head.bytes.length (hlooks ▸ hkeeps)
  have hrecv : httpcTcpRecv stale s p = looks.headersDone stale
      (contentLength head.bytes) head.bytes.length := by
    rw [httpcTcpRecv, if_neg hstate, Httpc.headers, if_pos hwait, hfhdrs,
      hkept, hwhole, head.headers_of_append]
    show _ = ((s.keep p).firstLine.did (uses _)).headersDone _ _ _
    rw [hfhdrs, hkept]
  have hcount : looks.rxContentLen = 0 := (hflen.trans hklen).trans hzero
  rw [hlooks, hcount, UInt32.zero_add] at hdcount
  refine ⟨fun hlt => absurd hends.after (by omega), fun _ => ?_⟩
  rw [hrecv]
  exact ⟨hdstate, hdversion.trans hversion, hdstatus.trans hstatus, hdlen,
    hdcount⟩

/-- A buffer of the body. -/
theorem Httpc.ReadSoFar.recv_body (h : s.ReadSoFar head q) (p : List Pbuf)
    (hlong : head.bytes.length ≤ (chainBytes q).length) :
    (httpcTcpRecv stale s p).ReadSoFar head (q ++ p) := by
  obtain ⟨hstate, hversion, hstatus, hlen, hcount⟩ := h.reading hlong
  refine ⟨fun hlt => ?_, fun _ => ?_⟩
  · rw [chainBytes_append, List.length_append] at hlt
    omega
  · rw [httpcTcpRecv, if_pos hstate]
    refine ⟨hstate, hversion, hstatus, hlen, ?_⟩
    show s.rxContentLen + UInt32.ofNat (chainBytes p).length = _
    rw [hcount, ← UInt32.ofNat_add, chainBytes_append, List.length_append]
    congr 1
    omega

theorem Httpc.ReadSoFar.recv (h : s.ReadSoFar head q) {p : List Pbuf}
    {body : List UInt8}
    (hsent : chainBytes (q ++ p) <+: head.bytes ++ body)
    (hkeeps : head.EndsIn q p →
      stale.KeepsLength (q ++ p) head.bytes.length) :
    (httpcTcpRecv stale s p).ReadSoFar head (q ++ p) := by
  by_cases hlong : head.bytes.length ≤ (chainBytes q).length
  · exact h.recv_body p hlong
  by_cases hpart : (chainBytes (q ++ p)).length < head.bytes.length
  · obtain ⟨r, hr⟩ := List.prefix_of_prefix_length_le hsent
      (List.prefix_append head.bytes body) (by omega)
    refine h.recv_part (r := r) ?_ hr.symm
    intro hnil
    rw [← hr, hnil, List.append_nil] at hpart
    omega
  · obtain ⟨r, hr⟩ := List.prefix_of_prefix_length_le
      (List.prefix_append head.bytes body) hsent (by omega)
    have hends : head.EndsIn q p := ⟨by omega, by omega⟩
    exact h.recv_head hends hr.symm (hkeeps hends)

theorem readSoFar_start (head : ResponseHead) :
    Httpc.start.ReadSoFar head [] := by
  refine ⟨fun _ => ⟨by decide, rfl, rfl, fun hne => nomatch hne⟩,
    fun hle => ?_⟩
  have hends : head.bytes.length - 4 + 4 ≤ head.bytes.length :=
    pbufMemfind_le head.ends
  rw [show chainBytes [] = [] from rfl, List.length_nil] at hle
  omega

theorem Httpc.ReadSoFar.recvAll (body : List UInt8)
    (buffers : List (List Pbuf))
    (hsent : chainBytes buffers.flatten <+: head.bytes ++ body)
    (hkeeps : ∀ first p, first ++ [p] <+: buffers →
      head.EndsIn first.flatten p →
        stale.KeepsLength (first.flatten ++ p) head.bytes.length) :
    (buffers.foldl (httpcTcpRecv stale) .start).ReadSoFar head
      buffers.flatten := by
  induction buffers using List.reverseRecOn with
  | nil => exact readSoFar_start head
  | append_singleton buffers p ih =>
      rw [List.flatten_append, List.flatten_singleton] at hsent ⊢
      rw [List.foldl_append, List.foldl_cons, List.foldl_nil]
      refine Httpc.ReadSoFar.recv (ih ?_ fun first p' hfirst => ?_) hsent
        (hkeeps buffers p List.prefix_rfl)
      · rw [chainBytes_append] at hsent
        exact (List.prefix_append _ _).trans hsent
      · exact hkeeps first p' (hfirst.trans (List.prefix_append _ _))

/-- What is known of a response whose head has this length and announces this
many bytes, when so many bytes have come and the connection ends. -/
def resultOfLengths (headLen : Nat) (announced : UInt32) (received : Nat) :
    HttpcResult :=
  if received < headLen then .errClosed
  else if announced ≠ httpcContentLenInvalid ∧
      announced ≠ UInt32.ofNat (received - headLen) then .errContentLen
  else .ok

/-- However TCP cuts what the server has sent of a response when it closes
the connection, in the head, in the body or in between: `result_fn` is told
what the lengths say, and, from the end of the head on, the status of its
first line and how many bytes of the body have come. So it is if the chain
that is released when the head is there keeps its length. -/
theorem closed_response_of_bytes (stale : StaleChains) (head : ResponseHead)
    (body : List UInt8) (buffers : List (List Pbuf))
    (hsent : chainBytes buffers.flatten <+: head.bytes ++ body)
    (hkeeps : ∀ first p, first ++ [p] <+: buffers →
      head.EndsIn first.flatten p →
        stale.KeepsLength (first.flatten ++ p) head.bytes.length) :
    let s := buffers.foldl (httpcTcpRecv stale) .start
    let received := (chainBytes buffers.flatten).length
    s.closedResult =
        resultOfLengths head.bytes.length (contentLength head.bytes)
          received ∧
      (head.bytes.length ≤ received → s.rxStatus = head.status ∧
        s.rxHttpVersion = head.version ∧
        s.rxContentLen = UInt32.ofNat (received - head.bytes.length)) := by
  have hread := Httpc.ReadSoFar.recvAll body buffers hsent hkeeps
  intro s received
  by_cases hlong : head.bytes.length ≤ received
  · obtain ⟨hstate, hversion, hstatus, hlen, hcount⟩ := hread.reading hlong
    refine ⟨?_, fun _ => ⟨hstatus, hversion, hcount⟩⟩
    have hnot : ¬ received < head.bytes.length := by omega
    rw [Httpc.closedResult, resultOfLengths, if_neg (not_not_intro hstate),
      if_neg hnot, hlen, hcount]
  · obtain ⟨hstate, _, _, _⟩ := hread.waiting (by omega)
    refine ⟨?_, fun hle => absurd hle hlong⟩
    rw [Httpc.closedResult, resultOfLengths, if_pos hstate,
      if_pos (by omega)]

/-! ## A chain that is as it was -/

theorem chainBytes_cons (p : Pbuf) (q : List Pbuf) :
    chainBytes (p :: q) = p.payload ++ chainBytes q := rfl

theorem chainBytes_pbufFreeHeader (q : List Pbuf) :
    ∀ size, chainBytes (pbufFreeHeader q size).2 =
      (chainBytes q).drop size := by
  induction q with
  | nil =>
      intro size
      rw [pbufFreeHeader]
      simp [chainBytes]
  | cons p q ih =>
      intro size
      rw [pbufFreeHeader]
      split
      · next hzero => simp [hzero]
      · split
        · next hle =>
            rw [chainBytes_cons, List.drop_append, ih,
              List.drop_eq_nil_of_le hle, List.nil_append]
        · next hgt =>
            rw [chainBytes_cons, chainBytes_cons, List.drop_append,
              Nat.sub_eq_zero_of_le (by omega), List.drop_zero]

theorem intact_keepsLength (q : List Pbuf) (size : Nat) :
    StaleChains.intact.KeepsLength q size := by
  have hrest := congrArg List.length (chainBytes_pbufFreeHeader q size)
  rw [List.length_drop] at hrest
  rw [StaleChains.KeepsLength, ← hrest]
  show (if (pbufFreeHeader q size).2 = [] then 0 else _) = _
  split
  · next hnil =>
      rw [hnil]
      rfl
  · rfl

/-- The smallest head with a body of two bytes. -/
def shortHead : ResponseHead where
  bytes := asciiBytes "HTTP/1.1 200 OK\r\nContent-Length: 2\r\n\r\n"
  version := 257
  status := 200
  space1 := 8
  space2 := 12
  length1 := 17
  length2 := 34
  space1_eq := by decide +kernel
  space2_eq := by decide +kernel
  status_eq := by decide +kernel
  length1_eq := by decide +kernel
  length2_eq := by decide +kernel
  ends := by decide +kernel
  status_fits := by decide
  length_fits := by decide

/-- Such a response, cut in its body. The head comes in one pbuf, and has a
byte behind it; of this pbuf lwIP keeps the length, also when it is free. -/
theorem closed_response_of_bytes_short :
    ([[⟨0, asciiBytes "HTTP/1.1 200 OK\r\nContent-Length: 2\r\n\r\no"⟩],
      [⟨1, asciiBytes "k"⟩]].foldl
        (httpcTcpRecv .intact) .start).closedResult = .ok :=
  (closed_response_of_bytes .intact shortHead (asciiBytes "ok")
    [[⟨0, asciiBytes "HTTP/1.1 200 OK\r\nContent-Length: 2\r\n\r\no"⟩],
      [⟨1, asciiBytes "k"⟩]]
    (by decide +kernel) fun _ _ _ _ => intact_keepsLength _ _).1.trans
      (by decide +kernel)

end IotHome.Firmware
