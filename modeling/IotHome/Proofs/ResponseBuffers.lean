import IotHome.Firmware.HttpClient
import Mathlib.Algebra.GroupWithZero.Nat
import Mathlib.Data.List.Induction
import Mathlib.Data.List.Nodup

/-!
# Who releases the buffers of a response

Until the headers are complete the client owns what it has been given, and the
end of the connection releases it. When they are, `headers_fn` releases the
chain of the headers, and then the client takes the header bytes off the same
chain, whatever it finds there. And nothing but complete headers is ever
credited to the window. So the releases are right just if the headers never
become complete (`released_iff`), and then no byte is credited.
-/

namespace IotHome.Firmware

open IotHome.Lib

/-- No call reads what one before it has released. -/
def UnusedAfter (log : List PbufOp) : Prop :=
  log.Pairwise fun op op' => ∀ id, op = .release id → op' ≠ .use id

structure Released (stale : StaleChains) (d : Delivery) : Prop where
  once : ∀ p ∈ d.buffers.flatten,
    (d.run stale).log.count (.release p.id) = 1
  unused : UnusedAfter (d.run stale).log

def PbufOp.credit : PbufOp → Nat
  | .recved len => len
  | _ => 0

def credits (log : List PbufOp) : Nat := (log.map PbufOp.credit).sum

/-- What is asked of the calls on the buffers of a response. -/
structure Accounted (stale : StaleChains) (d : Delivery) : Prop where
  released : Released stale d
  credited : credits (d.run stale).log =
    (chainBytes d.buffers.flatten).length

/-- Of the buffers so far, some of the first have the status in them. -/
def StatusRead (buffers : List (List Pbuf)) : Prop :=
  ∃ first, first <+: buffers ∧
    (httpParseResponseStatus (chainBytes first.flatten)).isSome

/-- Some of the first have the headers in them, the status being read. -/
def HeadersRead (buffers : List (List Pbuf)) : Prop :=
  ∃ first, first <+: buffers ∧ StatusRead first ∧
    (httpWaitHeaders (chainBytes first.flatten)).isSome

/-! ## The log -/

@[simp] theorem did_log (s : Httpc) (ops : List PbufOp) :
    (s.did ops).log = s.log ++ ops := rfl

@[simp] theorem did_rxHdrs (s : Httpc) (ops : List PbufOp) :
    (s.did ops).rxHdrs = s.rxHdrs := rfl

@[simp] theorem did_parseState (s : Httpc) (ops : List PbufOp) :
    (s.did ops).parseState = s.parseState := rfl

theorem rxData_log (s : Httpc) (p : Given) :
    (s.rxData p).log = s.log ++ (uses p.chain ++ pbufFree p.chain) := rfl

theorem keep_rxHdrs (s : Httpc) (p : List Pbuf) :
    (s.keep p).rxHdrs = s.rxHdrs ++ p := by
  rw [Httpc.keep]
  split
  · next hnull => simp [hnull]
  · rfl

theorem keep_parseState (s : Httpc) (p : List Pbuf) :
    (s.keep p).parseState = s.parseState := by
  rw [Httpc.keep]
  split
  · rfl
  · rfl

/-- A log with nothing but reads added. -/
def Reads (log log' : List PbufOp) : Prop := ∃ q, log' = log ++ uses q

theorem reads_keep (s : Httpc) (p : List Pbuf) :
    Reads s.log (s.keep p).log := by
  rw [Httpc.keep]
  split
  · exact ⟨[], by simp [uses]⟩
  · exact ⟨s.rxHdrs ++ p, rfl⟩

theorem firstLine_rxHdrs (s : Httpc) : s.firstLine.rxHdrs = s.rxHdrs := by
  rw [Httpc.firstLine]
  split
  · split
    · rfl
    · rfl
  · rfl

theorem reads_firstLine (s : Httpc) : Reads s.log s.firstLine.log := by
  rw [Httpc.firstLine]
  split
  · split
    · exact ⟨s.rxHdrs, rfl⟩
    · exact ⟨s.rxHdrs, rfl⟩
  · exact ⟨[], by simp [uses]⟩

theorem firstLine_waits {s : Httpc} (h : s.parseState ≠ .rxData) :
    s.firstLine.parseState ≠ .rxData := by
  rw [Httpc.firstLine]
  split
  · split
    · simp
    · exact h
  · exact h

theorem firstLine_status {s : Httpc} (h : s.parseState ≠ .rxData) :
    s.firstLine.parseState = .waitHeaders ↔ s.parseState = .waitHeaders ∨
      (httpParseResponseStatus (chainBytes s.rxHdrs)).isSome := by
  rw [Httpc.firstLine]
  cases hstate : s.parseState with
  | waitFirstLine =>
      cases httpParseResponseStatus (chainBytes s.rxHdrs) with
      | none => simp [hstate]
      | some status => simp
  | waitHeaders => simp [hstate]
  | rxData => exact absurd hstate h

section

variable (stale : StaleChains)

theorem hideHeaders_log (s : Httpc) (len : Nat) :
    ∃ ops, (s.hideHeaders stale len).log =
      s.log ++ (uses (s.rxHdrs.take 1) ++ ops) := by
  rw [Httpc.hideHeaders]
  split
  · exact ⟨_, rfl⟩
  · refine ⟨(stale s.rxHdrs len).ops ++ (uses (stale s.rxHdrs len).chain ++
      pbufFree (stale s.rxHdrs len).chain), (rxData_log _ _).trans ?_⟩
    simp

theorem headersDone_log (s : Httpc) (contentLength : UInt32) (len : Nat) :
    ∃ ops, (s.headersDone stale contentLength len).log =
      s.log ++ (.recved len :: (uses s.rxHdrs ++ pbufFree s.rxHdrs ++
        (uses (s.rxHdrs.take 1) ++ ops))) := by
  obtain ⟨ops, hops⟩ := hideHeaders_log stale (headersFn
    (Httpc.did { s with hdrContentLen := contentLength } [.recved len])
    s.rxHdrs) len
  refine ⟨ops, hops.trans ?_⟩
  simp [headersFn]

/-- The header bytes are taken off what `headers_fn` has released. -/
theorem headersDone_misuse {s : Httpc} (hne : s.rxHdrs ≠ [])
    (contentLength : UInt32) (len : Nat) :
    ¬ UnusedAfter (s.headersDone stale contentLength len).log := by
  obtain ⟨p, rest, hq⟩ := List.exists_cons_of_ne_nil hne
  obtain ⟨ops, hlog⟩ := headersDone_log stale s contentLength len
  intro hunused
  rw [UnusedAfter, hlog, hq, List.pairwise_append, List.pairwise_cons,
    List.pairwise_append] at hunused
  obtain ⟨_, ⟨_, _, _, hbetween⟩, _⟩ := hunused
  refine hbetween (.release p.id) ?_ (.use p.id) ?_ p.id rfl rfl
  · simp [pbufFree]
  · simp [uses]

end

/-! ## One buffer -/

/-- The headers are still being waited for. -/
structure Collecting (buffers : List (List Pbuf)) (s : Httpc) : Prop where
  rxHdrs : s.rxHdrs = buffers.flatten
  log : ∃ q, s.log = uses q
  waits : s.parseState ≠ .rxData
  status : s.parseState = .waitHeaders ↔ StatusRead buffers

theorem statusRead_concat (buffers : List (List Pbuf)) (p : List Pbuf) :
    StatusRead (buffers ++ [p]) ↔ StatusRead buffers ∨
      (httpParseResponseStatus
        (chainBytes (buffers.flatten ++ p))).isSome := by
  simp only [StatusRead, List.prefix_concat_iff, or_and_right, exists_or,
    exists_eq_left]
  rw [or_comm]
  simp

theorem headersRead_concat (buffers : List (List Pbuf)) (p : List Pbuf) :
    HeadersRead (buffers ++ [p]) ↔ HeadersRead buffers ∨
      StatusRead (buffers ++ [p]) ∧
        (httpWaitHeaders (chainBytes (buffers.flatten ++ p))).isSome := by
  simp only [HeadersRead, List.prefix_concat_iff, or_and_right, exists_or,
    exists_eq_left]
  rw [or_comm]
  simp

theorem Reads.trans {log log' log'' : List PbufOp} (h : Reads log log')
    (h' : Reads log' log'') : Reads log log'' := by
  obtain ⟨q, rfl⟩ := h
  obtain ⟨q', rfl⟩ := h'
  exact ⟨q ++ q', by simp [uses]⟩

/-- The state that the headers are looked for in. -/
theorem Collecting.looks {buffers : List (List Pbuf)} {s : Httpc}
    (h : Collecting buffers s) (p : List Pbuf) :
    Collecting (buffers ++ [p]) (s.keep p).firstLine := by
  have hwaits : (s.keep p).parseState ≠ .rxData := by
    rw [keep_parseState]
    exact h.waits
  refine ⟨?_, ?_, firstLine_waits hwaits, ?_⟩
  · rw [firstLine_rxHdrs, keep_rxHdrs, h.rxHdrs]
    simp
  · obtain ⟨q, hq⟩ := h.log
    obtain ⟨q', hq'⟩ := (reads_keep s p).trans (reads_firstLine _)
    exact ⟨q ++ q', by rw [hq', hq]; simp [uses]⟩
  · rw [firstLine_status hwaits, keep_parseState, keep_rxHdrs, h.rxHdrs,
      h.status, statusRead_concat]

section

variable (stale : StaleChains)

theorem Collecting.recv {buffers : List (List Pbuf)} {s : Httpc}
    (h : Collecting buffers s) (p : List Pbuf) :
    (Collecting (buffers ++ [p]) (httpcTcpRecv stale s p) ∧
      ¬ (StatusRead (buffers ++ [p]) ∧
        (httpWaitHeaders (chainBytes (buffers.flatten ++ p))).isSome)) ∨
    (¬ UnusedAfter (httpcTcpRecv stale s p).log ∧ StatusRead (buffers ++ [p]) ∧
      (httpWaitHeaders (chainBytes (buffers.flatten ++ p))).isSome) := by
  have hlooks := h.looks p
  have hbytes : (s.keep p).firstLine.rxHdrs = buffers.flatten ++ p := by
    rw [hlooks.rxHdrs]
    simp
  rw [httpcTcpRecv, if_neg h.waits, Httpc.headers, ← hbytes]
  split
  · next hstate =>
      have hread := hlooks.status.1 hstate
      cases hheaders : httpWaitHeaders
          (chainBytes (s.keep p).firstLine.rxHdrs) with
      | none =>
          obtain ⟨q, hq⟩ := hlooks.log
          refine .inl ⟨⟨hlooks.rxHdrs, ?_, hlooks.waits, hlooks.status⟩,
            by simp⟩
          exact ⟨q ++ (s.keep p).firstLine.rxHdrs, by simp [hq, uses]⟩
      | some result =>
          obtain ⟨contentLength, len⟩ := result
          have hne : (s.keep p).firstLine.rxHdrs ≠ [] := by
            intro hnull
            rw [hnull] at hheaders
            cases hheaders
          refine .inr ⟨?_, hread, rfl⟩
          exact headersDone_misuse stale (s := Httpc.did _ _) hne
            contentLength len
  · next hstate =>
      have hread : ¬ StatusRead (buffers ++ [p]) :=
        fun hread => hstate (hlooks.status.2 hread)
      exact .inl ⟨hlooks, fun hboth => hread hboth.1⟩

/-! ## All of them -/

theorem headers_log (s : Httpc) : s.log <+: (s.headers stale).log := by
  rw [Httpc.headers]
  split
  · split
    · next contentLength len _ =>
        obtain ⟨ops, hops⟩ :=
          headersDone_log stale (s.did (uses s.rxHdrs)) contentLength len
        rw [hops, did_log, List.append_assoc]
        exact List.prefix_append _ _
    · exact List.prefix_append _ _
  · exact List.prefix_rfl

theorem recv_log (s : Httpc) (p : List Pbuf) :
    s.log <+: (httpcTcpRecv stale s p).log := by
  rw [httpcTcpRecv]
  split
  · exact List.prefix_append _ _
  · obtain ⟨q, hq⟩ := (reads_keep s p).trans (reads_firstLine _)
    refine List.IsPrefix.trans ?_ (headers_log stale _)
    rw [hq]
    exact List.prefix_append _ _

theorem UnusedAfter.of_prefix {log log' : List PbufOp} (h : UnusedAfter log')
    (hpre : log <+: log') : UnusedAfter log :=
  h.sublist hpre.sublist

theorem collecting_start : Collecting [] .start where
  rxHdrs := rfl
  log := ⟨[], rfl⟩
  waits := by simp [Httpc.start]
  status := by
    simp only [StatusRead, List.prefix_nil, exists_eq_left]
    decide

/-- Either the headers are still being waited for, or what was released has
been read. -/
theorem run_cases (buffers : List (List Pbuf)) :
    (Collecting buffers (buffers.foldl (httpcTcpRecv stale) .start) ∧
      ¬ HeadersRead buffers) ∨
    (¬ UnusedAfter (buffers.foldl (httpcTcpRecv stale) .start).log ∧
      HeadersRead buffers) := by
  induction buffers using List.reverseRecOn with
  | nil =>
      refine .inl ⟨collecting_start, ?_⟩
      simp only [HeadersRead, List.prefix_nil, exists_eq_left]
      intro hread
      exact absurd hread.2 (by decide)
  | append_singleton buffers p ih =>
      rw [List.foldl_append, List.foldl_cons, List.foldl_nil,
        headersRead_concat]
      rcases ih with ⟨hcollecting, hnot⟩ | ⟨hmisuse, hread⟩
      · rcases hcollecting.recv stale p with ⟨hnext, hmore⟩ | ⟨hmisuse, hmore⟩
        · exact .inl ⟨hnext, not_or.2 ⟨hnot, hmore⟩⟩
        · exact .inr ⟨hmisuse, .inr hmore⟩
      · exact .inr ⟨fun h => hmisuse (h.of_prefix (recv_log stale _ p)),
          .inl hread⟩

/-- What the client does with buffers whose headers never come. -/
theorem run_log {d : Delivery} (h : ¬ HeadersRead d.buffers) :
    ∃ q, (d.run stale).log = uses q ++ pbufFree d.buffers.flatten := by
  rcases run_cases stale d.buffers with ⟨hcollecting, _⟩ | ⟨_, hread⟩
  · obtain ⟨q, hq⟩ := hcollecting.log
    refine ⟨q, ?_⟩
    show (d.buffers.foldl (httpcTcpRecv stale) .start).log ++ _ = _
    rw [hq, hcollecting.rxHdrs]
  · exact absurd hread h

theorem released_of_not_headersRead {d : Delivery}
    (h : ¬ HeadersRead d.buffers) : Released stale d := by
  obtain ⟨q, hq⟩ := run_log stale h
  constructor
  · intro p hp
    have huses : (uses q).count (.release p.id) = 0 := by
      refine List.count_eq_zero.2 fun hmem => ?_
      simp [uses] at hmem
    have hnodup : (pbufFree d.buffers.flatten).Nodup := by
      have hmap := d.nodup.map (f := PbufOp.release)
        fun _ _ heq => PbufOp.release.inj heq
      rwa [List.map_map] at hmap
    rw [hq, List.count_append, huses, Nat.zero_add]
    exact List.count_eq_one_of_mem hnodup (List.mem_map_of_mem hp)
  · rw [UnusedAfter, hq, List.pairwise_append]
    refine ⟨?_, ?_, ?_⟩
    · refine List.pairwise_map.2 (List.pairwise_of_forall ?_)
      simp
    · refine List.pairwise_map.2 (List.pairwise_of_forall ?_)
      simp
    · intro op hop op' hop' id hid
      simp [hid, uses] at hop

theorem released_iff (d : Delivery) :
    Released stale d ↔ ¬ HeadersRead d.buffers := by
  constructor
  · intro hreleased hread
    rcases run_cases stale d.buffers with ⟨_, hnot⟩ | ⟨hmisuse, _⟩
    · exact hnot hread
    · exact hmisuse (hreleased.unused.of_prefix (List.prefix_append _ _))
  · exact released_of_not_headersRead stale

theorem credits_run {d : Delivery} (h : ¬ HeadersRead d.buffers) :
    credits (d.run stale).log = 0 := by
  obtain ⟨q, hq⟩ := run_log stale h
  rw [credits, hq]
  simp [uses, pbufFree, PbufOp.credit, Function.comp_def]

theorem not_headersRead_nil {buffers : List (List Pbuf)}
    (h : chainBytes buffers.flatten = []) : ¬ HeadersRead buffers := by
  rintro ⟨first, ⟨rest, rfl⟩, _, hheaders⟩
  rw [List.flatten_append, chainBytes, List.flatMap_append,
    List.append_eq_nil_iff] at h
  rw [chainBytes, h.1] at hheaders
  exact absurd hheaders (by decide)

/-- The releases are right just if the headers never become complete, and the
credit as well just if there is nothing to credit. -/
theorem accounted_iff (d : Delivery) :
    (Released stale d ↔ ¬ HeadersRead d.buffers) ∧
      (Accounted stale d ↔ chainBytes d.buffers.flatten = []) := by
  refine ⟨released_iff stale d, ?_, ?_⟩
  · intro h
    have hcredited := h.credited
    rw [credits_run stale ((released_iff stale d).1 h.released)] at hcredited
    exact List.length_eq_zero_iff.1 hcredited.symm
  · intro hnil
    have hnot := not_headersRead_nil hnil
    refine ⟨released_of_not_headersRead stale hnot, ?_⟩
    rw [credits_run stale hnot, hnil]
    rfl

end

/-- An answer of the server, in one buffer. -/
def answerBuffer : Delivery where
  buffers :=
    [[⟨0, asciiBytes "HTTP/1.1 200 OK\r\nContent-Length: 2\r\n\r\nok"⟩]]
  nodup := by simp

theorem not_accounted : ¬ ∃ stale, ∀ d : Delivery, Accounted stale d := by
  rintro ⟨stale, h⟩
  have hread : HeadersRead answerBuffer.buffers := by
    refine ⟨_, List.prefix_rfl, ⟨_, List.prefix_rfl, ?_⟩, ?_⟩
    · decide +kernel
    · decide +kernel
  exact (released_iff stale answerBuffer).1 (h answerBuffer).released hread

end IotHome.Firmware
