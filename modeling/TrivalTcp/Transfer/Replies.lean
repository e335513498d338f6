import TrivalTcp.Transfer.Wire

/-!
# Transfer/Replies — two ends that answer each other

Any packets are on their way between two established ends, and are delivered in any order, each
once.  A packet that is answered is answered once, and an answer is an ACK or a window report, which
nothing answers.  So what is on its way gets lighter with each delivery, where an answer weighs 1
and anything else 2.
-/

namespace TrivalTcp

/-- An end is given the `n`-th packet on its way to it. -/
def deliverStep (w : Wire TjuTcp) : Side × ℕ → Outcome (Wire TjuTcp)
  | (x, n) =>
    match (w.channel x)[n]? with
    | none => .blocked
    | some pkt => tjuHandlePacket (w.ends x) pkt >>= fun (sock, packets) =>
        .ret ((w.takeOff x n).put x sock packets)

/-- Two established ends, and packets between them that are no FIN|ACK and have the right
lengths. -/
structure Chatting (w : Wire TjuTcp) : Prop where
  established : ∀ x, (w.ends x).state = .established
  sized : ∀ x, ∀ p ∈ w.channel x, Sized p
  notFin : ∀ x, ∀ p ∈ w.channel x, getFlags p ≠ Flag.finAck

/-- What `tcp_send_ack` and `back_only_header` send. -/
def IsReply (p : Buf) : Prop := ∃ s, p = tcpSendAck s ∨ p = backOnlyHeader s

/-- A packet nothing answers. -/
def Silent (p : Buf) : Prop := getFlags p = Flag.ack ∨ getFlags p = Flag.backhead

instance (p : Buf) : Decidable (Silent p) := inferInstanceAs (Decidable (_ ∨ _))

/-- An answer weighs 1, anything else 2. -/
def weight (p : Buf) : ℕ := if Silent p then 1 else 2

/-! ## Answers -/

theorem IsReply.spec {p : Buf} (h : IsReply p) :
    Sized p ∧ Silent p ∧ getFlags p ≠ Flag.finAck ∧ sendToLayer3 p = some p := by
  obtain ⟨s, rfl | rfl⟩ := h
  · have hbuilt := controlPkt_built s s.expectSeq s.expectSeq Flag.ack (advWnd s)
    exact ⟨hbuilt.sized, .inl hbuilt.flags, hbuilt.flags ▸ by decide,
      hbuilt.sendToLayer3 (by decide)⟩
  · have hbuilt := controlPkt_built s s.nextseq 0 Flag.backhead (advWnd s)
    exact ⟨hbuilt.sized, .inr hbuilt.flags, hbuilt.flags ▸ by decide,
      hbuilt.sendToLayer3 (by decide)⟩

/-- **A delivery is answered once at most**, and an answer not at all. -/
theorem handled_reply (s : TjuTcp) (p : Buf) :
    (handled s p).2 = [] ∨ ¬ Silent p ∧ ∃ r, (handled s p).2 = [r] ∧ IsReply r := by
  dsimp only [handled]
  split_ifs with hhead hback hack
  · exact .inr ⟨by rw [Silent, hhead]; decide, _, rfl, _, .inr rfl⟩
  · exact .inl rfl
  · exact .inl rfl
  · exact .inl rfl
  · exact .inr ⟨fun h => h.elim hack hback, _, rfl, _, .inl rfl⟩
  · exact .inr ⟨fun h => h.elim hack hback, _, rfl, _, .inl rfl⟩

theorem handled_state (s : TjuTcp) {p : Buf} (h : Sized p) : (handled s p).1.state = s.state :=
  tjuHandlePacket_state (tjuHandlePacket_eq h s)

/-! ## A delivery -/

variable {w w' : Wire TjuTcp} {x : Side} {n : ℕ} {pkt : Buf}

theorem deliverStep_eq (hpkt : (w.channel x)[n]? = some pkt) (h : Sized pkt) :
    deliverStep w (x, n) =
      .ret ((w.takeOff x n).put x (handled (w.ends x) pkt).1 (handled (w.ends x) pkt).2) := by
  rw [deliverStep, hpkt]
  dsimp only
  rw [tjuHandlePacket_eq h]
  rfl

/-- Whatever is on its way can be delivered. -/
theorem Chatting.returns (h : Chatting w) (hn : n < (w.channel x).length) :
    ∃ w', deliverStep w (x, n) = .ret w' :=
  ⟨_, deliverStep_eq (List.getElem?_eq_getElem hn) (h.sized x _ (List.getElem_mem hn))⟩

/-- What a step does is a delivery of something on its way. -/
theorem deliverStep_cases (hs : deliverStep w (x, n) = .ret w') :
    ∃ pkt, (w.channel x)[n]? = some pkt := by
  rw [deliverStep] at hs
  cases hpkt : (w.channel x)[n]? with
  | none =>
    rw [hpkt] at hs
    nomatch hs
  | some pkt => exact ⟨pkt, rfl⟩

/-- **One delivery**: the two ends go on as before, and what is on its way gets lighter. -/
theorem Chatting.step (h : Chatting w) (hs : deliverStep w (x, n) = .ret w') :
    Chatting w' ∧ w'.weigh weight < w.weigh weight := by
  obtain ⟨pkt, hpkt⟩ := deliverStep_cases hs
  have hmem := List.mem_of_getElem? hpkt
  have hsized := h.sized x pkt hmem
  obtain rfl := Outcome.ret.inj (hs.symm.trans (deliverStep_eq hpkt hsized))
  obtain ⟨replies, hreplies, hnew, hweight⟩ : ∃ replies,
      ((handled (w.ends x) pkt).2).filterMap sendToLayer3 = replies ∧ (∀ p ∈ replies, IsReply p) ∧
      (replies.map weight).sum < weight pkt := by
    rcases handled_reply (w.ends x) pkt with hnil | ⟨hloud, r, hr, hreply⟩
    · refine ⟨[], by rw [hnil]; rfl, nofun, ?_⟩
      rw [weight]
      split_ifs
      · exact Nat.one_pos
      · exact Nat.two_pos
    · obtain ⟨-, hsilent, -, hout⟩ := hreply.spec
      refine ⟨[r], ?_, fun p hp => List.mem_singleton.mp hp ▸ hreply, ?_⟩
      · rw [hr, List.filterMap_cons_some hout, List.filterMap_nil]
      · rw [List.map_singleton, List.sum_singleton, weight, weight, if_pos hsilent, if_neg hloud]
        exact Nat.one_lt_two
  have hchannel : ∀ {P : Buf → Prop}, (∀ y, ∀ p ∈ w.channel y, P p) → (∀ p ∈ replies, P p) →
      ∀ y, ∀ p ∈ ((w.takeOff x n).put x (handled (w.ends x) pkt).1
        (handled (w.ends x) pkt).2).channel y, P p := by
    intro P hold hreply y p hp
    rcases x.eq_or_other y with rfl | rfl
    · rw [Wire.put_channel_self, Wire.takeOff, Wire.setChannel_channel_self] at hp
      exact hold y p (List.mem_of_mem_eraseIdx hp)
    · rw [Wire.put_channel_other, Wire.takeOff, Wire.setChannel_channel_other, hreplies] at hp
      rcases List.mem_append.mp hp with hp | hp
      · exact hold x.other p hp
      · exact hreply p hp
  refine ⟨⟨fun y => ?_, hchannel h.sized fun p hp => (hnew p hp).spec.1,
    hchannel h.notFin fun p hp => (hnew p hp).spec.2.2.1⟩, ?_⟩
  · rcases x.eq_or_other y with rfl | rfl
    · rw [Wire.put_ends_self, handled_state _ hsized]
      exact h.established y
    · rw [Wire.put_ends_other]
      exact h.established x.other
  · have hoff := Wire.weigh_takeOff weight hpkt
    rw [Wire.weigh_put, hreplies]
    omega

theorem length_le_sum_weight (l : List Buf) :
    l.length ≤ (l.map weight).sum ∧ (l.map weight).sum ≤ 2 * l.length := by
  induction l with
  | nil => exact ⟨le_rfl, le_rfl⟩
  | cons p l ih =>
    have hweight : weight p = 1 ∨ weight p = 2 := by
      rw [weight]
      split_ifs
      · exact .inl rfl
      · exact .inr rfl
    rw [List.map_cons, List.sum_cons, List.length_cons]
    omega

/-- What is on its way weighs at least 1 and at most 2 a packet. -/
theorem inFlight_le_weigh (w : Wire TjuTcp) :
    w.inFlight ≤ w.weigh weight ∧ w.weigh weight ≤ 2 * w.inFlight := by
  have hclient := length_le_sum_weight (w.channel .client)
  have hserver := length_le_sum_weight (w.channel .server)
  rw [Wire.inFlight, Wire.weigh]
  omega

/-- **No reply storm.**  In whatever order the packets between two ends and the answers to them are
delivered, after `m` deliveries no more than `2 n - m` packets are left of `n`: `2 n` deliveries
empty the network.  Whatever is left can be delivered; it is answered once at most, and what answers
it is answered by nobody. -/
theorem no_reply_storm {w w' : Wire TjuTcp} (h : Chatting w) {es : List (Side × ℕ)}
    (hr : run deliverStep w es = .ret w') :
    es.length + w'.inFlight ≤ 2 * w.inFlight ∧
      ∀ x, ∀ p ∈ w'.channel x, ∃ s replies, tjuHandlePacket (w'.ends x) p = .ret (s, replies) ∧
        replies.length ≤ 1 ∧ ∀ r ∈ replies, IsReply r ∧
          ∀ s, ∃ t, tjuHandlePacket s r = .ret (t, []) := by
  have hrun := run_length_le (I := Chatting) (μ := fun w => w.weigh weight)
    (fun w e w' hw hs => hw.step hs) h hr
  have hend : Chatting w' := run_invariant (fun e _ w w' hw hs => (hw.step hs).1) h hr
  have hstart := (inFlight_le_weigh w).2
  have hleft := (inFlight_le_weigh w').1
  refine ⟨by omega, fun x p hp => ?_⟩
  refine ⟨(handled (w'.ends x) p).1, (handled (w'.ends x) p).2,
    tjuHandlePacket_eq (hend.sized x p hp) _, ?_, fun r hr => ?_⟩
  · rcases handled_reply (w'.ends x) p with hnil | ⟨-, r, hr, -⟩
    · rw [hnil]
      exact Nat.zero_le _
    · rw [hr]
      exact le_rfl
  · rcases handled_reply (w'.ends x) p with hnil | ⟨-, r', hr', hreply⟩
    · rw [hnil] at hr
      nomatch hr
    · rw [hr'] at hr
      obtain rfl := List.mem_singleton.mp hr
      obtain ⟨hsized, hsilent, -⟩ := hreply.spec
      refine ⟨hreply, fun s => ⟨(handled s r).1, ?_⟩⟩
      rcases handled_reply s r with hnil | ⟨hloud, -⟩
      · rw [tjuHandlePacket_eq hsized, ← hnil]
      · exact absurd hsilent hloud

/-- Two sockets in zeroed memory, and a SYN and a window probe on their way to one of them. -/
def sampleChat : Wire TjuTcp where
  ends _ := zeroedSock
  channel
    | .client => []
    | .server => [controlPkt zeroedSock 0 0 Flag.syn 0, controlPkt zeroedSock 0 0 Flag.head 0]

theorem chatting_sampleChat : Chatting sampleChat where
  established _ := rfl
  sized x p hp := by
    cases x with
    | client => nomatch hp
    | server =>
      rcases List.mem_pair.mp hp with rfl | rfl
      · exact (controlPkt_built _ _ _ _ _).sized
      · exact (controlPkt_built _ _ _ _ _).sized
  notFin x p hp := by
    cases x with
    | client => nomatch hp
    | server =>
      rcases List.mem_pair.mp hp with rfl | rfl
      · rw [(controlPkt_built _ _ _ _ _).flags]
        decide
      · rw [(controlPkt_built _ _ _ _ _).flags]
        decide

/-- Both are answered, and four deliveries empty the network. -/
theorem no_reply_storm_two : ∃ w', run deliverStep sampleChat
    [(.server, 0), (.server, 0), (.client, 1), (.client, 0)] = .ret w' ∧ w'.inFlight = 0 := by
  have hrun : (run deliverStep sampleChat [(.server, 0), (.server, 0), (.client, 1), (.client, 0)]
      >>= fun _ => .ret ()) = .ret () := by decide
  obtain ⟨w', hw', -⟩ := Outcome.bind_eq_ret.mp hrun
  obtain ⟨hlen, -⟩ := no_reply_storm chatting_sampleChat hw'
  have hfour : sampleChat.inFlight = 2 := rfl
  rw [hfour] at hlen
  exact ⟨w', hw', Nat.le_zero.mp (Nat.le_of_add_le_add_left hlen)⟩

end TrivalTcp
