import TrivalTcp.Transfer.Delivery

/-!
# Transfer/StaleAck — acknowledgements that arrive late

`tju_handle_packet` takes the sequence number of any ACK for the new `base`.  A receiver's ACKs are
numbered in the order it sends them (`AcksSorted`), so `base` moves back only where the network lets
one overtake another: `neverBack_iff`.
-/

namespace TrivalTcp

open CumulativeAck

/-! ## The acknowledgements an end has sent -/

/-- A packet long enough to be read, and an acknowledgement. -/
def IsAck (pkt : Buf) : Prop := headerLen ≤ pkt.length ∧ getFlags pkt = Flag.ack

instance (pkt : Buf) : Decidable (IsAck pkt) := inferInstanceAs (Decidable (_ ∧ _))

/-- Later acknowledgements say no less than earlier ones, and none says more than the end has
accepted. -/
structure AcksSorted (a : EndState) : Prop where
  sorted : a.handed.Pairwise fun p q => IsAck p → IsAck q → getSeq p ≤ getSeq q
  le : ∀ p ∈ a.handed, IsAck p → getSeq p ≤ a.sock.expectSeq

/-- From `a` to `a'` nothing has been sent that acknowledges anything but what `a'` has accepted. -/
def AcksUpTo (a a' : EndState) : Prop := ∃ packets, a'.handed = a.handed ++ packets ∧
  ∀ p ∈ packets, IsAck p → getSeq p = a'.sock.expectSeq

/-- **Acknowledgements stay sorted** as long as the end accepts no less than before. -/
theorem AcksSorted.step {a a' : EndState} (h : AcksSorted a) (hs : AcksUpTo a a')
    (hle : a.sock.expectSeq ≤ a'.sock.expectSeq) : AcksSorted a' := by
  obtain ⟨packets, hhanded, hnew⟩ := hs
  have hold : ∀ p ∈ a.handed, IsAck p → getSeq p ≤ a'.sock.expectSeq :=
    fun p hp hack => UInt32.le_trans (h.le p hp hack) hle
  constructor
  · rw [hhanded, List.pairwise_append]
    refine ⟨h.sorted, List.pairwise_of_forall_mem_list ?_, ?_⟩
    · intro p hp q hq hpack hqack
      rw [hnew p hp hpack, hnew q hq hqack]
      exact UInt32.le_refl _
    · intro p hp q hq hpack hqack
      rw [hnew q hq hqack]
      exact hold p hp hpack
  · intro p hp hack
    rw [hhanded] at hp
    rcases List.mem_append.mp hp with hp | hp
    · exact hold p hp hack
    · rw [hnew p hp hack]
      exact UInt32.le_refl _

theorem AcksUpTo.none {a a' : EndState} (h : a'.handed = a.handed) : AcksUpTo a a' :=
  ⟨[], h.trans (List.append_nil _).symm, fun _ hp => nomatch hp⟩

/-- One packet is sent, and it is no acknowledgement. -/
theorem AcksUpTo.other {a a' : EndState} {pkt : Buf} (h : a'.handed = a.handed ++ [pkt])
    (hpkt : ¬ IsAck pkt) : AcksUpTo a a' := by
  refine ⟨[pkt], h, fun p hp hack => ?_⟩
  rw [List.mem_singleton.mp hp] at hack
  exact absurd hack hpkt

/-- One acknowledgement is sent. -/
theorem AcksUpTo.ack {a a' : EndState} {s : TjuTcp} (h : a'.handed = a.handed ++ [tcpSendAck s])
    (hs : s.expectSeq = a'.sock.expectSeq) : AcksUpTo a a' := by
  refine ⟨[tcpSendAck s], h, fun p hp _ => ?_⟩
  rw [List.mem_singleton.mp hp, tcpSendAck, (controlPkt_built s _ _ _ _).seq, hs]

theorem not_isAck_controlPkt (s : TjuTcp) (seq ack : UInt32) {flags : UInt8} (adv : UInt16)
    (hf : flags ≠ Flag.ack) : ¬ IsAck (controlPkt s seq ack flags adv) :=
  fun h => hf ((controlPkt_built s seq ack flags adv).flags.symm.trans h.2)

theorem not_isAck_dataPkt (s : TjuTcp) (seq : UInt32) (adv : UInt16) (buf : Buf) :
    ¬ IsAck (dataPkt s seq adv buf) := by
  rintro ⟨hlen, hflags⟩
  rcases dataPkt_eq s seq adv buf with hlt | ⟨h, b, hpkt, -, -, -, hf, -⟩
  · exact absurd hlt (Nat.not_lt.mpr hlen)
  · rw [hpkt, getFlags_bytes, hf] at hflags
    exact absurd hflags (by decide)

/-! ## What an end does -/

/-- What a step that is given no acknowledgement does to `base` and sends. -/
structure KeepsBase (a a' : EndState) : Prop where
  base : a'.sock.base = a.sock.base
  acks : AcksUpTo a a'

theorem keepsBase_sendChunk {a : EndState} {buf : Buf} {r : Sent} (copied : Buf)
    (hs : sendChunk (a.sock.setSendingBuf []) buf = .ret r) :
    KeepsBase a { a with sock := r.sock, handed := a.handed ++ r.packets, copied } := by
  rcases sendChunk_cases hs with ⟨-, rfl⟩ | ⟨-, -, t, msg, rfl, rfl, rfl⟩
  · exact ⟨rfl, .none (List.append_nil _)⟩
  · refine ⟨?_, .other rfl (not_isAck_dataPkt _ _ _ _)⟩
    rw [tcpStartTimer_eq]
    dsimp only
    split_ifs <;> rfl

theorem keepsBase_timerExpiry {a : EndState} {s : TjuTcp} {packets : List Buf}
    (hs : timerExpiry a.sock = .ret (s, packets)) :
    KeepsBase a { a with sock := s, handed := a.handed ++ packets } := by
  rcases tcpWriteTimerHandler_cases hs with ⟨-, rfl, rfl⟩ | ⟨-, rfl, rfl⟩ | ⟨-, -, rfl, rfl⟩ |
    ⟨-, -, -, hclose⟩ | ⟨-, -, -, hretr⟩ | ⟨-, rfl, rfl⟩
  · exact ⟨by rw [tcpStartTimer_eq]; rfl, .other rfl (not_isAck_controlPkt _ _ _ _ (by decide))⟩
  · exact ⟨by rw [tcpStartTimer_eq]; rfl, .other rfl (not_isAck_controlPkt _ _ _ _ (by decide))⟩
  · exact ⟨rfl, .ack rfl rfl⟩
  · obtain ⟨rfl, rfl⟩ := Prod.mk.inj hclose
    exact ⟨rfl, .other rfl (not_isAck_controlPkt _ _ _ _ (by decide))⟩
  · obtain ⟨-, rfl, rfl⟩ := tcpRetransmitTimer_cases hretr
    refine ⟨?_, .other rfl (not_isAck_dataPkt _ _ _ _)⟩
    obtain ⟨_, _, _, hloss⟩ := handleLossAck_eq (disarm a.sock)
    rw [tcpStartTimer_eq, hloss]
    rfl
  · exact ⟨rfl, .none (List.append_nil _)⟩

/-- **Nothing an end does on its own moves `base`.** -/
theorem callStep_keepsBase {a a' : EndState} {c : Call} (hs : callStep a c = .ret a') :
    KeepsBase a a' := by
  cases c with
  | send buffer =>
    rcases callStep_send_eq_ret hs with rfl | rfl
    · exact ⟨rfl, .none rfl⟩
    · exact ⟨rfl, .none rfl⟩
  | stream =>
    obtain ⟨r, hstream, rfl⟩ := callStep_stream_eq_ret hs
    rcases tcpSendStream_cases hstream with ⟨-, rfl⟩ | ⟨-, -, hchunk⟩
    · exact ⟨rfl, .none (List.append_nil _)⟩
    · exact keepsBase_sendChunk _ hchunk
  | timeout =>
    obtain ⟨s, packets, hexp, rfl⟩ := callStep_timeout_eq_ret hs
    exact keepsBase_timerExpiry hexp
  | recv len =>
    obtain ⟨bytes, rest, -, rfl⟩ := callStep_recv_eq_ret hs
    exact ⟨rfl, .none rfl⟩

/-- The socket after an acknowledgement without data. -/
theorem base_handled_ack {s : TjuTcp} {pkt : Buf} (hf : getFlags pkt = Flag.ack) :
    (handled s pkt).1.base = getSeq pkt ∧ (handled s pkt).2 = [] := by
  obtain ⟨_, _, _, hack⟩ := handled_ack s hf
  rw [hack]
  exact ⟨rfl, rfl⟩

/-- **A packet that is no acknowledgement** does not move `base`. -/
theorem handled_keepsBase {a : EndState} {pkt : Buf} (hf : getFlags pkt ≠ Flag.ack) :
    KeepsBase a { a with
      sock := (handled a.sock pkt).1
      handed := a.handed ++ (handled a.sock pkt).2 } := by
  dsimp only [handled]
  rw [if_neg hf]
  split_ifs
  · exact ⟨rfl, .other rfl (not_isAck_controlPkt _ _ _ _ (by decide))⟩
  · exact ⟨rfl, .none (List.append_nil _)⟩
  · exact ⟨rfl, .none (List.append_nil _)⟩
  · exact ⟨rfl, .ack rfl rfl⟩
  · exact ⟨rfl, .ack rfl rfl⟩

/-! ## A link whose acknowledgements are watched -/

/-- A link, and which packet each end was given last as an acknowledgement. -/
structure Watched where
  link : Link
  /-- A position among the packets of the other end. -/
  last : Side → Option ℕ

/-- Nothing has been given to either end yet. -/
def Watched.start (l : Link) : Watched := ⟨l, fun _ => none⟩

/-- Which packets were given last as acknowledgements, once `e` has happened. -/
def lastAck (w : Watched) : LinkEvent → Side → Option ℕ
  | .call _ _ => w.last
  | .deliver x n =>
    match (w.link x.other).handed[n]? with
    | none => w.last
    | some pkt => if IsAck pkt then Function.update w.last x (some n) else w.last

def watchedStep (w : Watched) (e : LinkEvent) : Outcome Watched :=
  linkStep w.link e >>= fun link => .ret ⟨link, lastAck w e⟩

/-- The step moves no `base` back. -/
def NeverBack (w : Watched) (e : LinkEvent) : Prop :=
  ∀ w', watchedStep w e = .ret w' → ∀ x, (w.link x).sock.base ≤ (w'.link x).sock.base

/-- An acknowledgement arrives after one that was sent later and says something else. -/
def Overtaken (w : Watched) (e : LinkEvent) : Prop := ∃ x n m pkt pkt', e = .deliver x n ∧
  w.last x = some m ∧ n < m ∧ (w.link x.other).handed[n]? = some pkt ∧
  (w.link x.other).handed[m]? = some pkt' ∧ IsAck pkt ∧ getSeq pkt ≠ getSeq pkt'

theorem overtaken_deliver (w : Watched) (x : Side) (n : ℕ) : Overtaken w (.deliver x n) ↔
    ∃ m ∈ w.last x, n < m ∧ ∃ pkt ∈ (w.link x.other).handed[n]?,
      ∃ pkt' ∈ (w.link x.other).handed[m]?, IsAck pkt ∧ getSeq pkt ≠ getSeq pkt' := by
  constructor
  · rintro ⟨_, _, m, pkt, pkt', he, hm, hlt, hpkt, hpkt', hsays⟩
    obtain ⟨rfl, rfl⟩ := LinkEvent.deliver.inj he
    exact ⟨m, hm, hlt, pkt, hpkt, pkt', hpkt', hsays⟩
  · rintro ⟨m, hm, hlt, pkt, hpkt, pkt', hpkt', hsays⟩
    exact ⟨x, n, m, pkt, pkt', rfl, hm, hlt, hpkt, hpkt', hsays⟩

instance (w : Watched) (e : LinkEvent) : Decidable (Overtaken w e) :=
  match e with
  | .call _ _ => .isFalse fun ⟨_, _, _, _, _, he, _⟩ => LinkEvent.noConfusion he
  | .deliver x n => decidable_of_iff' _ (overtaken_deliver w x n)

/-- `base` is what the acknowledgement given last says. -/
def LastOk (l : Link) (x : Side) : Option ℕ → Prop
  | none => (l x).sock.base = 0
  | some m => ∃ pkt, (l x.other).handed[m]? = some pkt ∧ IsAck pkt ∧ (l x).sock.base = getSeq pkt

/-- **Every state of a watched link.** -/
structure WatchedOk (w : Watched) : Prop where
  flows : ∃ f, (∀ x, Safe (f x)) ∧ Simulates w.link f
  sorted : ∀ x, AcksSorted (w.link x)
  last : ∀ x, LastOk w.link x (w.last x)

theorem watchedOk_start {l : Link} (h : LinkStart l) : WatchedOk (.start l) where
  flows := ⟨_, fun _ => safe_initial, simulates_start h⟩
  sorted x := by
    obtain ⟨s, -, -, hx⟩ := h x
    have hsorted : AcksSorted (l x) := by
      rw [hx]
      exact ⟨.nil, fun _ hp => nomatch hp⟩
    exact hsorted
  last x := by
    obtain ⟨s, hs, -, hx⟩ := h x
    have hbase : (l x).sock.base = 0 := by
      rw [hx]
      exact hs.base
    exact hbase

section Watched

variable {l : Link} {x : Side} {a : EndState}

/-- What one end does leaves the packets of the other where they are. -/
theorem LastOk.keep {o : Option ℕ} (h : LastOk l x o) (ha : KeepsBase (l x) a) :
    LastOk (Function.update l x a) x o := by
  have hself : Function.update l x a x = a := Function.update_self _ _ _
  have hpeer : Function.update l x a x.other = l x.other := Function.update_of_ne x.other_ne _ _
  cases o with
  | none =>
    rw [LastOk, hself]
    exact ha.base.trans h
  | some m =>
    rw [LastOk, hself, hpeer, ha.base]
    exact h

/-- The other end has sent more, and that is behind what it had sent. -/
theorem LastOk.peer {o : Option ℕ} (h : LastOk l x.other o) (ha : AcksUpTo (l x) a) :
    LastOk (Function.update l x a) x.other o := by
  have hself : Function.update l x a x = a := Function.update_self _ _ _
  have hpeer : Function.update l x a x.other = l x.other := Function.update_of_ne x.other_ne _ _
  cases o with
  | none =>
    rw [LastOk, hpeer]
    exact h
  | some m =>
    obtain ⟨pkt, hpkt, hack, hbase⟩ := h
    obtain ⟨packets, hhanded, -⟩ := ha
    rw [Side.other_other] at hpkt
    refine ⟨pkt, ?_, hack, hpeer ▸ hbase⟩
    obtain ⟨hlt, -⟩ := List.getElem?_eq_some_iff.mp hpkt
    rw [Side.other_other, hself, hhanded, List.getElem?_append_left hlt]
    exact hpkt

end Watched

/-- **The parts of a step put together**: one end's step keeps both ends' acknowledgements sorted,
since an end accepts no less than before. -/
theorem WatchedOk.update {w : Watched} (h : WatchedOk w) {e : LinkEvent} {x : Side} {a : EndState}
    (hs : linkStep w.link e = .ret (Function.update w.link x a)) (ha : AcksUpTo (w.link x) a)
    {last : Side → Option ℕ} (hx : LastOk (Function.update w.link x a) x (last x))
    (hpeer : last x.other = w.last x.other) : WatchedOk ⟨Function.update w.link x a, last⟩ := by
  obtain ⟨f, hsafe, hf⟩ := h.flows
  obtain ⟨f', hsteps, hf'⟩ := linkStep_simulates hf hsafe hs
  have hgrows : (w.link x).sock.expectSeq ≤ a.sock.expectSeq := by
    have hnew := hf' x
    rw [Function.update_self] at hnew
    rw [UInt32.le_iff_toNat_le, ← (hf x).expectSeq, ← hnew.expectSeq]
    exact (hsteps x.other).got_grows.length_le
  refine ⟨⟨f', fun y => (hsteps y).safe (hsafe y), hf'⟩, fun y => ?_, fun y => ?_⟩
  · dsimp only
    rcases x.eq_or_other y with rfl | rfl
    · rw [Function.update_self]
      exact (h.sorted y).step ha hgrows
    · rw [Function.update_of_ne x.other_ne]
      exact h.sorted x.other
  · rcases x.eq_or_other y with rfl | rfl
    · exact hx
    · have hlast := h.last x.other
      rw [← hpeer] at hlast
      exact hlast.peer ha

/-- **What a delivery does to the end it reaches**: an acknowledgement becomes `base`, anything else
leaves it. -/
theorem WatchedOk.deliver {w : Watched} (h : WatchedOk w) {x : Side} {n : ℕ} {pkt : Buf}
    (hpkt : (w.link x.other).handed[n]? = some pkt) (hlen : headerLen ≤ pkt.length) :
    ∃ a, linkStep w.link (.deliver x n) = .ret (Function.update w.link x a) ∧
      AcksUpTo (w.link x) a ∧ (getFlags pkt = Flag.ack → a.sock.base = getSeq pkt) ∧
      (getFlags pkt ≠ Flag.ack → KeepsBase (w.link x) a) := by
  obtain ⟨f, -, hf⟩ := h.flows
  have hsized := ((hf.peer x).handed pkt (List.mem_of_getElem? hpkt)).sized hlen
  refine ⟨_, linkStep_deliver_eq hpkt hsized, ?_, fun hack => (base_handled_ack hack).1,
    handled_keepsBase⟩
  by_cases hack : getFlags pkt = Flag.ack
  · refine .none ?_
    rw [(base_handled_ack hack).2, List.append_nil]
  · exact (handled_keepsBase hack).acks

/-- **One step of a watched link.** -/
theorem WatchedOk.step {w w' : Watched} (h : WatchedOk w) {e : LinkEvent}
    (hs : watchedStep w e = .ret w') : WatchedOk w' := by
  obtain ⟨l', hlink, hret⟩ := Outcome.bind_eq_ret.mp hs
  obtain rfl := Outcome.ret.inj hret
  cases e with
  | call x c =>
    obtain ⟨a, hcall, hret⟩ := Outcome.bind_eq_ret.mp hlink
    obtain rfl := Outcome.ret.inj hret
    have ha := callStep_keepsBase hcall
    exact h.update hlink ha.acks ((h.last x).keep ha) rfl
  | deliver x n =>
    obtain ⟨pkt, hpkt, hlen⟩ := linkStep_deliver hlink
    obtain ⟨a, hstep, hacks, hbase, hkeeps⟩ := h.deliver hpkt hlen
    obtain rfl := Outcome.ret.inj (hlink.symm.trans hstep)
    by_cases hack : getFlags pkt = Flag.ack
    · have hlast : lastAck w (.deliver x n) = Function.update w.last x (some n) := by
        rw [lastAck, hpkt]
        exact if_pos ⟨hlen, hack⟩
      rw [hlast]
      refine h.update hlink hacks ?_ (Function.update_of_ne x.other_ne _ _)
      rw [Function.update_self]
      refine ⟨pkt, ?_, ⟨hlen, hack⟩, ?_⟩
      · rw [Function.update_of_ne x.other_ne]
        exact hpkt
      · rw [Function.update_self]
        exact hbase hack
    · have hlast : lastAck w (.deliver x n) = w.last := by
        rw [lastAck, hpkt]
        exact if_neg fun h => hack h.2
      rw [hlast]
      exact h.update hlink hacks ((h.last x).keep (hkeeps hack)) rfl

/-! ## When `base` moves back -/

/-- Two acknowledgements of one end, in the order they were sent. -/
theorem AcksSorted.getSeq_le {a : EndState} (h : AcksSorted a) {i j : ℕ} (hij : i ≤ j) {p q : Buf}
    (hp : a.handed[i]? = some p) (hq : a.handed[j]? = some q) (hpack : IsAck p) (hqack : IsAck q) :
    getSeq p ≤ getSeq q := by
  obtain ⟨hi, rfl⟩ := List.getElem?_eq_some_iff.mp hp
  obtain ⟨hj, rfl⟩ := List.getElem?_eq_some_iff.mp hq
  rcases hij.eq_or_lt with rfl | hlt
  · exact UInt32.le_refl _
  · exact List.pairwise_iff_getElem.mp h.sorted i j hi hj hlt hpack hqack

/-- **An acknowledgement that has been overtaken** moves `base` back. -/
theorem WatchedOk.back {w : Watched} (h : WatchedOk w) {e : LinkEvent} (he : Overtaken w e) :
    ¬ NeverBack w e := by
  obtain ⟨x, n, m, pkt, pkt', rfl, hm, hlt, hpkt, hpkt', hack, hne⟩ := he
  obtain ⟨a, hstep, -, hbase, -⟩ := h.deliver hpkt hack.1
  have hlast := h.last x
  rw [hm] at hlast
  obtain ⟨q, hq, hqack, hbase'⟩ := hlast
  obtain rfl := Option.some.inj (hq.symm.trans hpkt')
  intro hnever
  have hs : watchedStep w (.deliver x n) =
      .ret ⟨Function.update w.link x a, lastAck w (.deliver x n)⟩ := by
    rw [watchedStep, hstep]
    rfl
  have hle := hnever _ hs x
  dsimp only at hle
  rw [Function.update_self, hbase hack.2, hbase'] at hle
  exact hne (UInt32.le_antisymm ((h.sorted x.other).getSeq_le hlt.le hpkt hq hack hqack) hle)

/-- **No other step does.** -/
theorem WatchedOk.neverBack {w : Watched} (h : WatchedOk w) {e : LinkEvent}
    (he : ¬ Overtaken w e) : NeverBack w e := by
  intro w' hs y
  obtain ⟨l', hlink, hret⟩ := Outcome.bind_eq_ret.mp hs
  obtain rfl := Outcome.ret.inj hret
  have hsame : ∀ {x a}, (w.link x).sock.base ≤ a.sock.base → (w.link y).sock.base ≤
      (Function.update w.link x a y).sock.base := by
    intro x a hle
    rcases x.eq_or_other y with rfl | rfl
    · rwa [Function.update_self]
    · rw [Function.update_of_ne x.other_ne]
      exact UInt32.le_refl _
  cases e with
  | call x c =>
    obtain ⟨a, hcall, hret⟩ := Outcome.bind_eq_ret.mp hlink
    obtain rfl := Outcome.ret.inj hret
    exact hsame (UInt32.le_of_eq (callStep_keepsBase hcall).base.symm)
  | deliver x n =>
    obtain ⟨pkt, hpkt, hlen⟩ := linkStep_deliver hlink
    obtain ⟨a, hstep, -, hbase, hkeeps⟩ := h.deliver hpkt hlen
    obtain rfl := Outcome.ret.inj (hlink.symm.trans hstep)
    by_cases hack : getFlags pkt = Flag.ack
    · refine hsame ?_
      rw [hbase hack]
      have hlast := h.last x
      cases hm : w.last x with
      | none =>
        rw [hm] at hlast
        rw [show (w.link x).sock.base = 0 from hlast]
        exact UInt32.zero_le
      | some m =>
        rw [hm] at hlast
        obtain ⟨q, hq, hqack, hbase'⟩ := hlast
        rw [hbase']
        rcases Nat.lt_or_ge n m with hlt | hge
        · refine UInt32.le_of_eq (not_not.mp fun hne => he ?_)
          exact ⟨x, n, m, pkt, q, rfl, hm, hlt, hpkt, hq, ⟨hlen, hack⟩, Ne.symm hne⟩
        · exact (h.sorted x.other).getSeq_le hge hq hpkt hqack ⟨hlen, hack⟩
    · exact hsame (UInt32.le_of_eq (hkeeps hack).base.symm)

/-- **Exactly when the left edge of the window never moves back.**  In every run of two ends that
start at 0, no step moves a `base` back **if and only if** the network never gives an end an
acknowledgement after one that was sent later and says something else. -/
theorem neverBack_iff {l : Link} (h : LinkStart l) (es : List LinkEvent) :
    EveryStep watchedStep NeverBack (.start l) es ↔
      EveryStep watchedStep (fun w e => ¬ Overtaken w e) (.start l) es :=
  everyStep_congr (fun _ _ _ hok => hok.step)
    (fun _ _ hok => ⟨fun hnever he => hok.back he hnever, hok.neverBack⟩) (watchedOk_start h) es

/-- Two bytes are sent and acknowledged one by one, and the acknowledgements arrive in order. -/
theorem neverBack_iff_inOrder : EveryStep watchedStep NeverBack (.start zeroedLink)
    [.call .client (.send [1]), .call .client .stream, .deliver .server 0,
      .call .client (.send [2]), .call .client .stream, .deliver .server 1, .deliver .client 0,
      .deliver .client 1] :=
  (neverBack_iff linkStart_zeroedLink _).mpr (by decide)

/-- **An acknowledgement is overtaken**: two bytes are sent and acknowledged one by one, and the
acknowledgements arrive in the wrong order. -/
theorem neverBack_fails_overtaken : LinkStart zeroedLink ∧ ∃ w w',
    run watchedStep (.start zeroedLink) [.call .client (.send [1]), .call .client .stream,
      .deliver .server 0, .call .client (.send [2]), .call .client .stream, .deliver .server 1,
      .deliver .client 1] = .ret w ∧ watchedStep w (.deliver .client 0) = .ret w' ∧
    (w.link .client).sock.base = 2 ∧ (w'.link .client).sock.base = 1 := by
  refine ⟨linkStart_zeroedLink, ?_⟩
  have hrun : (run watchedStep (.start zeroedLink)
      [.call .client (.send [1]), .call .client .stream, .deliver .server 0,
        .call .client (.send [2]), .call .client .stream, .deliver .server 1,
        .deliver .client 1] >>= fun w => watchedStep w (.deliver .client 0) >>= fun w' =>
        .ret ((w.link .client).sock.base, (w'.link .client).sock.base)) = .ret (2, 1) := by decide
  obtain ⟨w, hw, hrun⟩ := Outcome.bind_eq_ret.mp hrun
  obtain ⟨w', hw', hret⟩ := Outcome.bind_eq_ret.mp hrun
  obtain ⟨hbase, hbase'⟩ := Prod.mk.inj (Outcome.ret.inj hret)
  exact ⟨w, w', hw, hw', hbase, hbase'⟩

end TrivalTcp
