import TrivalTcp.Transfer.Window

/-!
# Transfer/Chunk — the chunk is everything there is to send

An iteration of `tcp_send_stream` takes all of `sending_buf`, puts it into one packet and hands that
on.  Nothing asks how long the chunk is, so two things hold exactly as far as the chunks allow:

* `onTheWire_iff` — what is given sequence numbers leaves the host;
* `respectsWindows_iff` — what is sent fits into the send window and into the peer's.
-/

namespace TrivalTcp

/-! ## One end, and any peer -/

/-- What can happen to an end. -/
inductive EndEvent where
  | call (c : Call)
  /-- A packet arrives, from a peer that may send anything. -/
  | packet (pkt : Buf)

def endStep (a : EndState) : EndEvent → Outcome EndState
  | .call c => callStep a c
  | .packet pkt => packetStep a pkt

/-- Nothing that happens to an end makes `sending_len` more than an `int` can count. -/
theorem length_sendingBuf_le {a a' : EndState} {e : EndEvent} (hs : endStep a e = .ret a')
    (h : a.sock.sendingBuf.length ≤ intMax) : a'.sock.sendingBuf.length ≤ intMax := by
  cases e with
  | packet pkt =>
    obtain ⟨t, packets, hhandle, rfl⟩ := packetStep_eq_ret hs
    obtain ⟨_, _, _, _, _, _, rfl⟩ := tjuHandlePacket_frame hhandle
    exact h
  | call c => exact length_sendingBuf_callStep hs h

/-! ## On the wire -/

/-- Whatever this step gives sequence numbers is handed on in packets that `sendToLayer3` lets out,
and that carry just what stands in that range of `send_windows`, or behind it where the copy reaches
past its end. -/
def OnTheWire (a : EndState) : EndEvent → Prop
  | .call .stream => ∀ r, spillStream a.sock = .ret r →
      (∀ pkt ∈ r.packets, headerLen ≤ pkt.length ∧ sendToLayer3 pkt = some pkt) ∧
      r.packets.flatMap payload = r.sock.window.wndSend.sendWindows.read a.sock.nextseq.toNat
        (r.sock.nextseq - a.sock.nextseq).toNat
  | _ => True

/-- A chunk gets sequence numbers that is too long for one packet. -/
def TooLong (a : EndState) : EndEvent → Prop
  | .call .stream => TakesChunk a.sock ∧ maxLen - headerLen < a.sock.sendingBuf.length
  | _ => False

instance (a : EndState) : ∀ e, Decidable (TooLong a e)
  | .call .stream => inferInstanceAs (Decidable (_ ∧ _))
  | .call (.send _) | .call .timeout | .call (.recv _) | .packet _ => isFalse id

/-- A packet that `sendToLayer3` lets out carries no more than `MAX_LEN` has room for. -/
theorem length_payload_le {pkt : Buf} (h : sendToLayer3 pkt = some pkt) :
    (payload pkt).length ≤ maxLen - headerLen := by
  rw [sendToLayer3] at h
  split_ifs at h with hlong
  rw [payload, List.length_drop]
  omega

/-- What a chunk that gets sequence numbers becomes: one packet, and a range of `send_windows`. -/
theorem sentChunk_range {s : TjuTcp} (hlen : s.sendingBuf.length ≤ intMax) : ∃ r t adv,
    sentChunk (s.setSendingBuf []) s.sendingBuf = r ∧
      r.packets = [dataPkt t s.nextseq adv s.sendingBuf] ∧
      r.sock.window.wndSend.sendWindows.read s.nextseq.toNat (r.sock.nextseq - s.nextseq).toNat =
        s.sendingBuf := by
  obtain ⟨t, adv, interruptSignal, hr⟩ := sentChunk_sendingBuf s
  refine ⟨_, t, adv, hr, rfl, ?_⟩
  rw [intMax] at hlen
  have hadvance : (s.nextseq + .ofNat s.sendingBuf.length - s.nextseq).toNat =
      s.sendingBuf.length := by
    have hzero : (s.nextseq - s.nextseq).toNat = 0 := congrArg _ (UInt32.sub_self s.nextseq)
    rw [toNat_add_sub (by omega), hzero, Nat.zero_add]
  have hread := Block.read_write s.window.wndSend.sendWindows s.nextseq.toNat s.sendingBuf
  rw [← hadvance] at hread
  exact hread

/-- **One step is on the wire** unless its chunk is too long. -/
theorem onTheWire_step {a : EndState} (hlen : a.sock.sendingBuf.length ≤ intMax) (e : EndEvent) :
    OnTheWire a e ↔ ¬ TooLong a e := by
  cases e with
  | packet pkt => exact ⟨fun _ => id, fun _ => trivial⟩
  | call c =>
    cases c with
    | send buffer | timeout | recv len => exact ⟨fun _ => id, fun _ => trivial⟩
    | stream =>
      by_cases htakes : TakesChunk a.sock
      · obtain ⟨r, t, adv, hr, hpackets, hrange⟩ := sentChunk_range hlen
        have hstream : spillStream a.sock = .ret r := hr ▸ spillStream_takes htakes
        constructor
        · rintro hwire ⟨-, hlong⟩
          obtain ⟨hout, hbytes⟩ := hwire r hstream
          rw [hpackets, List.forall_mem_singleton] at hout
          rw [hpackets, List.flatMap_singleton, hrange] at hbytes
          rw [← hbytes] at hlong
          exact Nat.not_lt.mpr (length_payload_le hout.2) hlong
        · intro hshort r' hret
          obtain rfl := Outcome.ret.inj (hstream.symm.trans hret)
          have hlen : a.sock.sendingBuf.length ≤ maxLen - headerLen :=
            Nat.not_lt.mp fun hlt => hshort ⟨htakes, hlt⟩
          rw [maxLen, headerLen] at hlen
          have hbuilt : Built (dataPkt t a.sock.nextseq adv a.sock.sendingBuf) _ _ _ _ :=
            dataPkt_built t a.sock.nextseq adv (by rw [headerLen]; omega)
          rw [hpackets, List.forall_mem_singleton, List.flatMap_singleton, hrange]
          exact ⟨⟨hbuilt.sized.header_le, hbuilt.sendToLayer3 (by rw [maxLen, headerLen]; omega)⟩,
            hbuilt.payload⟩
      · refine ⟨fun _ hlong => htakes hlong.1, fun _ r hr => ?_⟩
        obtain rfl := spillStream_idle htakes hr
        refine ⟨fun _ hmem => absurd hmem List.not_mem_nil, ?_⟩
        have hzero : (a.sock.setSendingBuf []).nextseq - a.sock.nextseq = 0 :=
          UInt32.sub_self a.sock.nextseq
        rw [hzero]
        rfl

/-- **Exactly when every byte that is given a sequence number is on the wire.**  Along every run of
an end, whatever its peer sends, each advance of `nextseq` is handed on in packets that are let out
**if and only if** no chunk is longer than the 1378 bytes one packet has room for.  `sending_len` is
an `int`, so no more can be waiting than an `int` counts. -/
theorem onTheWire_iff {s : TjuTcp} (hlen : s.sendingBuf.length ≤ intMax) (es : List EndEvent) :
    EveryStep endStep OnTheWire (.start s) es ↔
      EveryStep endStep (fun a e => ¬ TooLong a e) (.start s) es :=
  everyStep_congr (I := fun a => a.sock.sendingBuf.length ≤ intMax)
    (fun _ _ _ hI hs => length_sendingBuf_le hs hI) (fun _ e hI => onTheWire_step hI e) hlen es

/-- A run in which the client's one chunk just fits. -/
theorem onTheWire_iff_fits : EveryStep endStep OnTheWire (.start zeroedSock)
    [.call (.send (.replicate 1378 0)), .call .stream] :=
  (onTheWire_iff (Nat.zero_le _) _).mpr (by decide +kernel)

/-- **Bytes that are never sent**: 1379 of them get sequence numbers, in a packet of 1401 bytes that
`sendToLayer3` refuses. -/
theorem onTheWire_fails_long : Fresh zeroedSock ∧ ¬ EveryStep endStep OnTheWire (.start zeroedSock)
    [.call (.send (.replicate 1379 0)), .call .stream] := by
  refine ⟨fresh_zeroedSock, fun h => ?_⟩
  have hrun : (run endStep (.start zeroedSock) [.call (.send (.replicate 1379 0))] >>= fun a =>
      .ret (a.sock.sendingBuf.length, decide (TooLong a (.call .stream)))) = .ret (1379, true) := by
    decide +kernel
  obtain ⟨a, ha, hret⟩ := Outcome.bind_eq_ret.mp hrun
  obtain ⟨hlen, hlong⟩ := Prod.mk.inj (Outcome.ret.inj hret)
  have hlast : EveryStep endStep OnTheWire a [.call .stream] := h.after ha
  exact (onTheWire_step (hlen.trans_le (by decide)) _).mp hlast.1 (of_decide_eq_true hlong)

/-! ## Inside the two windows -/

/-- What is left of the send window: `window_left` of `tcp_send_stream`, which nothing reads. -/
def windowLeft (s : TjuTcp) : ℤ :=
  s.window.wndSend.windowSize.toNat - (s.nextseq.toNat - s.base.toNat)

/-- What is left of the window the peer has advertised: `uwnd` of `tcp_send_stream`, which is
commented out. -/
def uwnd (s : TjuTcp) : ℤ :=
  s.window.wndSend.rwnd.toNat - (s.nextseq.toNat - s.base.toNat)

/-- A data packet this step hands on ends inside the send window and inside the peer's. -/
def RespectsWindows (a : EndState) : EndEvent → Prop
  | .call .stream => ∀ r, spillStream a.sock = .ret r → ∀ pkt ∈ r.packets,
      (a.sock.nextseq.toNat : ℤ) + r.copied.length - a.sock.base.toNat ≤
          a.sock.window.wndSend.windowSize.toNat ∧
        (a.sock.nextseq.toNat : ℤ) + r.copied.length - a.sock.base.toNat ≤
          a.sock.window.wndSend.rwnd.toNat
  | _ => True

/-- A chunk is sent for which one of the two windows has no room. -/
def Exceeds (a : EndState) : EndEvent → Prop
  | .call .stream => TakesChunk a.sock ∧
      (windowLeft a.sock < a.sock.sendingBuf.length ∨ uwnd a.sock < a.sock.sendingBuf.length)
  | _ => False

instance (a : EndState) : ∀ e, Decidable (Exceeds a e)
  | .call .stream => inferInstanceAs (Decidable (_ ∧ _))
  | .call (.send _) | .call .timeout | .call (.recv _) | .packet _ => isFalse id

/-- **One step stays inside the windows** unless its chunk does not: that its first byte does is all
that is asked. -/
theorem respectsWindows_step (a : EndState) (e : EndEvent) :
    RespectsWindows a e ↔ ¬ Exceeds a e := by
  cases e with
  | packet pkt => exact ⟨fun _ => id, fun _ => trivial⟩
  | call c =>
    cases c with
    | send buffer | timeout | recv len => exact ⟨fun _ => id, fun _ => trivial⟩
    | stream =>
      by_cases htakes : TakesChunk a.sock
      · obtain ⟨t, adv, interruptSignal, hsent⟩ := sentChunk_sendingBuf a.sock
        have hr := spillStream_takes htakes
        rw [hsent] at hr
        constructor
        · rintro hin ⟨-, hout⟩
          obtain ⟨hwindow, hpeer⟩ := hin _ hr _ (List.mem_singleton.mpr rfl)
          dsimp only at hwindow hpeer
          rw [windowLeft, uwnd] at hout
          omega
        · intro hout r hret pkt _
          obtain rfl := Outcome.ret.inj (hr.symm.trans hret)
          have hleft : ¬ (windowLeft a.sock < a.sock.sendingBuf.length ∨
              uwnd a.sock < a.sock.sendingBuf.length) := fun h => hout ⟨htakes, h⟩
          rw [windowLeft, uwnd] at hleft
          dsimp only
          omega
      · refine ⟨fun _ hout => htakes hout.1, fun _ r hr pkt hmem => ?_⟩
        obtain rfl := spillStream_idle htakes hr
        exact absurd hmem List.not_mem_nil

/-- **Exactly when the sender respects both windows.**  Along every run of an end, whatever its peer
sends and advertises, what is sent ends inside the send window and inside the peer's **if and only
if** no chunk is sent that is longer than what is left of either. -/
theorem respectsWindows_iff (s : TjuTcp) (es : List EndEvent) :
    EveryStep endStep RespectsWindows (.start s) es ↔
      EveryStep endStep (fun a e => ¬ Exceeds a e) (.start s) es :=
  everyStep_congr (I := fun _ => True) (fun _ _ _ _ _ => trivial)
    (fun a e _ => respectsWindows_step a e) trivial es

/-- **More than the peer has room for**: it advertises a window of one byte, and is sent two. -/
theorem respectsWindows_fails_two : Fresh zeroedSock ∧
    ¬ EveryStep endStep RespectsWindows (.start zeroedSock)
      [.packet (controlPkt zeroedSock 0 0 Flag.ack 1), .call (.send [1, 2]), .call .stream] := by
  refine ⟨fresh_zeroedSock, fun h => ?_⟩
  have hrun : (run endStep (.start zeroedSock)
      [.packet (controlPkt zeroedSock 0 0 Flag.ack 1), .call (.send [1, 2])] >>= fun a =>
      .ret (decide (Exceeds a (.call .stream)))) = .ret true := by decide
  obtain ⟨a, ha, hret⟩ := Outcome.bind_eq_ret.mp hrun
  have hout : Exceeds a (.call .stream) := of_decide_eq_true (Outcome.ret.inj hret)
  have hlast : EveryStep endStep RespectsWindows a [.call .stream] := h.after ha
  exact (respectsWindows_step a _).mp hlast.1 hout

end TrivalTcp
