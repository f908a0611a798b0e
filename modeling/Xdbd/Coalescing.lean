import Xdbd.OnePacket

/-!
# Packets in one piece

Several packets that one call of `recv` returns: the first takes all bytes behind its header for its
payload, and nothing is left for the others.
-/
namespace Xdbd
open Interaction Code

variable {s t : Slot} {ks : List RecvResult} {h : List Obs} {n : ℕ}

/-- A packet as it is sent. -/
def encode (p : Header × List UInt8) : List UInt8 := p.1.bytes ++ p.2

/-- After `n` read events exactly the packets `ps` were dispatched, in this order. -/
def Slot.DispatchesAll (n : ℕ) (h : List Obs) (ps : List (Header × List UInt8)) (s : Slot) : Prop :=
  ∃ t new, s.readEvents n = .ok t ∧ t.wire.history = h ++ new ∧ dispatches new = ps

lemma Dispatched.all {hdr : Header} {payload bs : List UInt8} (hd : Dispatched h hdr payload bs t) :
    ∃ new, t.wire.history = h ++ new ∧ dispatches new = [(hdr, payload)] := by
  obtain ⟨pre, post, ht, hpre, hpost, -⟩ := hd
  refine ⟨pre ++ .dispatch hdr payload :: post, by rw [ht, List.append_assoc], ?_⟩
  rw [dispatches_append, hpre]
  show (hdr, payload) :: dispatches post = _
  rw [hpost]

lemma Delivered.dispatchesAll_iff {hdr : Header} {payload bs : List UInt8}
    (hd : Delivered h hdr payload bs ks s) (hs : ∀ k ∈ ks, k = .again)
    {ps : List (Header × List UInt8)} :
    s.DispatchesAll n h ps ↔ ps = [(hdr, payload)] := by
  have hrun : ∃ t, s.readEvents n = .ok t ∧ Dispatched h hdr payload bs t := by
    induction n generalizing s ks with
    | zero => exact ⟨s, rfl, hd.dispatched⟩
    | succ n ih =>
      obtain ⟨t, ks', ht, hd', hs'⟩ := hd.readEvent hs
      obtain ⟨u, hu, hdu⟩ := ih hd' hs'
      exact ⟨u, by rw [Slot.readEvents, ht]; exact hu, hdu⟩
  obtain ⟨t, ht, hdt⟩ := hrun
  obtain ⟨new, hnew, hall⟩ := hdt.all
  constructor
  · rintro ⟨t', new', ht', hnew', hps⟩
    rw [ht] at ht'
    cases ht'
    rw [← hps, ← hall, List.append_cancel_left (hnew.symm.trans hnew')]
  · rintro rfl
    exact ⟨t, new, ht, hnew, hall⟩

/-- A single `recv` that returns the packets `ps`: they are dispatched one by one, each with its own
payload, exactly if there is only one of them. -/
theorem Slot.coalesced_iff (hw : s.Waits) {ps : List (Header × List UInt8)} (hne : ps ≠ [])
    (hr : s.wire.recvs = .bytes (ps.flatMap encode) :: ks) (hks : ∀ k ∈ ks, k = .again)
    (hdlen : ∀ p ∈ ps, p.2.length = p.1.dlen.toNat)
    (hfit : (ps.flatMap encode).length ≤ adbMaxPacketSize) (hn : 1 ≤ n) :
    s.DispatchesAll n s.wire.history ps ↔ ps.length = 1 := by
  obtain ⟨⟨hdr, payload⟩, qs, rfl⟩ := List.exists_cons_of_ne_nil hne
  obtain ⟨n, rfl⟩ := Nat.exists_eq_add_of_le' hn
  set bs := ((hdr, payload) :: qs).flatMap encode with hbs
  have hsplit : bs = hdr.bytes ++ (payload ++ qs.flatMap encode) := List.append_assoc _ _ _
  have hlen : bs.length = headerSize + (payload.length + (qs.flatMap encode).length) := by
    rw [hsplit, List.length_append, List.length_append, Header.bytes_length]
  have h24 : headerSize = 24 := rfl
  have hpend : pending s.wire.recvs = bs := by
    have : pending ks = [] := List.flatMap_eq_nil_iff.mpr fun k hk => by
      rw [hks k hk]
      rfl
    rw [hr]
    show bs ++ pending ks = bs
    rw [this, List.append_nil]
  have hsup : Supply 0 s.wire.recvs := by
    refine ⟨fun k hk => ?_, by rw [hpend]; omega⟩
    rw [hr] at hk
    rcases List.mem_cons.mp hk with rfl | hk
    · exact .inr ⟨bs, by omega, rfl⟩
    · exact .inl (hks k hk)
  obtain ⟨t, ht, ha⟩ := hw.readEvent (h := s.wire.history) ⟨[], (List.append_nil _).symm, rfl, rfl⟩
    hsup
  have hdelivered : Delivered s.wire.history hdr (payload ++ qs.flatMap encode) bs ks t := by
    rw [hr] at ha
    cases ha with
    | blocked recvs _ _ _ => rcases recvs with he | ⟨he, -⟩ <;> cases he
    | started recvs result =>
      cases recvs
      rcases result with ⟨-, headed⟩ | ⟨hshort, -⟩
      · cases headed with
        | short gathered =>
          have := gathered.short
          omega
        | opened long opened =>
          have hhdr : headerOf bs = hdr := by
            unfold headerOf
            rw [hsplit, List.take_left' hdr.bytes_length, ← List.append_nil hdr.bytes,
              Header.ofBytes_bytes]
          have hdrop : bs.drop headerSize = payload ++ qs.flatMap encode := by
            rw [hsplit, ← Header.bytes_length hdr, List.drop_left]
          have hd := hdlen (hdr, payload) List.mem_cons_self
          rw [hhdr] at opened
          cases opened with
          | whole enough delivered =>
            rw [hdrop] at delivered
            exact delivered
          | joined _ short _ => dsimp only at hd; omega
          | lagging _ short _ => dsimp only at hd; omega
      · omega
  have hstep : s.DispatchesAll (n + 1) s.wire.history ((hdr, payload) :: qs) ↔
      t.DispatchesAll n s.wire.history ((hdr, payload) :: qs) := by
    unfold Slot.DispatchesAll
    rw [Slot.readEvents, ht]
    rfl
  rw [hstep, hdelivered.dispatchesAll_iff hks]
  cases qs with
  | nil => simp
  | cons q qs => simp

theorem Slot.coalesced_iff_one :
    (waitingSlot [.bytes (encode (writeHeader 2, [7, 9]))]).DispatchesAll 1 []
      [(writeHeader 2, [7, 9])] :=
  (@Slot.coalesced_iff (waitingSlot [.bytes (encode (writeHeader 2, [7, 9]))]) [] 1
    (waits_waitingSlot _) [(writeHeader 2, [7, 9])] (by simp) rfl (fun k hk => nomatch hk)
    (fun p hp => by rw [List.mem_singleton.mp hp]; rfl) (by decide) le_rfl).mpr rfl

/-- Two packets: the first is dispatched with the second in its payload. -/
theorem packets_merged : ¬ ∀ (s : Slot) (ps : List (Header × List UInt8)) (n : ℕ), s.Waits →
    ps ≠ [] → s.wire.recvs = [.bytes (ps.flatMap encode)] →
      (∀ p ∈ ps, p.1.Supported ∧ p.1.pcmd ≠ pcmdClse ∧ p.2.length = p.1.dlen.toNat) →
        (ps.flatMap encode).length ≤ adbMaxPacketSize → 1 ≤ n →
          s.DispatchesAll n s.wire.history ps := fun h => by
  have hboth : ∀ p ∈ [(writeHeader 2, [(7 : UInt8), 9]), (writeHeader 0, [])],
      p.1.Supported ∧ p.1.pcmd ≠ pcmdClse ∧ p.2.length = p.1.dlen.toNat := by
    intro p hp
    simp only [List.mem_cons, List.not_mem_nil, or_false] at hp
    rcases hp with rfl | rfl <;> decide
  obtain ⟨t, new, ht, hnew, hall⟩ := h (waitingSlot [.bytes ([(writeHeader 2, [7, 9]),
    (writeHeader 0, [])].flatMap encode)]) _ 1 (waits_waitingSlot _) (by simp) rfl hboth (by decide)
      le_rfl
  have hrun : ((waitingSlot [.bytes ([(writeHeader 2, [7, 9]), (writeHeader 0, [])].flatMap
      encode)]).readEvents 1).map (fun t => dispatches t.wire.history) =
        .ok [(writeHeader 2, 7 :: 9 :: (writeHeader 0).bytes)] := rfl
  rw [ht] at hrun
  have hlost : dispatches t.wire.history = [(writeHeader 2, 7 :: 9 :: (writeHeader 0).bytes)] :=
    Except.ok.inj hrun
  have hhist : t.wire.history = new := hnew
  rw [hhist, hall] at hlost
  exact absurd hlost (by decide)

end Xdbd
