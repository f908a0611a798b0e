import Xdbd.ReadEvents

/-!
# One packet

A packet that arrives in parts. The payload is taken at the first bytes that follow the header, all
there or not, so it is whole only if the result that completes the header completes the packet, or
the very next one does.
-/
namespace Xdbd
open Interaction Code

variable {s t u : Slot} {bs c payload : List UInt8} {ks : List RecvResult} {h : List Obs}
  {hdr : Header} {n : ℕ}

/-- The results `ks` bring the bytes `bs`, in any parts and with any pauses. -/
structure Cut (bs : List UInt8) (ks : List RecvResult) : Prop where
  kinds : ∀ k ∈ ks, k = .again ∨ ∃ c, 0 < c.length ∧ k = .bytes c
  bytes : pending ks = bs

/-- With `got` bytes there, the result that completes the header completes all `total` bytes, or
the next result does. -/
def Prompt (total : ℕ) : ℕ → List RecvResult → Prop
  | _, [] => False
  | got, .bytes c :: ks =>
    if got + c.length < headerSize then Prompt total (got + c.length) ks
    else got + c.length = total ∨ ∃ c' ks', ks = .bytes c' :: ks' ∧
      got + c.length + c'.length = total
  | got, _ :: ks => Prompt total got ks

/-- After `n` read events the packet was dispatched once, when all of it had arrived. -/
def Slot.Reassembles (n : ℕ) (h : List Obs) (hdr : Header) (payload : List UInt8) (s : Slot) :
    Prop :=
  ∃ t, s.readEvents n = .ok t ∧ Dispatched h hdr payload (hdr.bytes ++ payload) t

lemma Slot.reassembles_succ (hs : s.readEvent = .ok t) :
    s.Reassembles (n + 1) h hdr payload ↔ t.Reassembles n h hdr payload := by
  unfold Slot.Reassembles
  rw [Slot.readEvents, hs]
  rfl

/-! ## A packet that is whole -/

lemma Delivered.reassembles (hd : Delivered h hdr payload (hdr.bytes ++ payload) ks s)
    (hs : ∀ k ∈ ks, k = .again) : s.Reassembles n h hdr payload := by
  induction n generalizing s ks with
  | zero => exact ⟨s, rfl, hd.dispatched⟩
  | succ n ih =>
    obtain ⟨t, ks', ht, hd', hs'⟩ := hd.readEvent hs
    exact (Slot.reassembles_succ ht).mpr (ih hd' hs')

/-! ## A packet that is not -/

/-- The packet will not be dispatched as it was sent. -/
inductive Spoilt (h : List Obs) (hdr : Header) (t : Slot) : Prop
  | lagging {m : ℤ} {ks : List RecvResult} (lags : Lagging h hdr m ks t)
    (kinds : ∀ k ∈ ks, k = .again ∨ ∃ c, 0 < c.length ∧ k = .bytes c)
    (short : m + (pending ks).length < hdr.dlen.toNat) : Spoilt h hdr t
  | lost (heard : ∃ bs, Heard h bs t) (gone : t.read.index = none) : Spoilt h hdr t
  | wrong {new : List Obs} {hdr' : Header} {payload : List UInt8}
    (history : t.wire.history = h ++ new) (first : (dispatches new).head? = some (hdr', payload))
    (length : payload.length ≠ hdr.dlen.toNat) : Spoilt h hdr t

lemma Dispatched.first (hd : Dispatched h hdr payload bs t) : ∃ new,
    t.wire.history = h ++ new ∧ (dispatches new).head? = some (hdr, payload) := by
  obtain ⟨pre, post, ht, hpre, -, -⟩ := hd
  refine ⟨pre ++ .dispatch hdr payload :: post, by rw [ht, List.append_assoc], ?_⟩
  rw [dispatches_append, hpre]
  rfl

lemma Heard.not_dispatched (hh : Heard h bs t) {bs' : List UInt8} :
    ¬ Dispatched h hdr payload bs' t := fun hd => by
  obtain ⟨new, ht, hn, -⟩ := hh
  obtain ⟨new', ht', hfirst⟩ := hd.first
  rw [← List.append_cancel_left (ht.symm.trans ht'), hn] at hfirst
  cases hfirst

lemma Spoilt.not_dispatched (hs : Spoilt h hdr t) (hlen : payload.length = hdr.dlen.toNat) :
    ¬ Dispatched h hdr payload bs t := fun hd => by
  cases hs with
  | lagging lags _ _ =>
    obtain ⟨bs', hh⟩ := lags.heard
    exact hh.not_dispatched hd
  | lost heard _ =>
    obtain ⟨bs', hh⟩ := heard
    exact hh.not_dispatched hd
  | wrong history first length =>
    obtain ⟨new', ht', hfirst⟩ := hd.first
    rw [← List.append_cancel_left (history.symm.trans ht'), first] at hfirst
    cases hfirst
    exact length hlen

lemma Slot.readEvent_history (hs : s.readEvent = .ok t) : s.wire.history <+: t.wire.history := by
  unfold Slot.readEvent at hs
  split_ifs at hs
  · cases hs
    exact List.prefix_rfl
  · split at hs
    · rename_i hd _
      cases hrun : Prog.run Slot.exec (code hd) s.readied with
      | error e =>
        rw [hrun] at hs
        cases hs
      | ok x =>
        rw [hrun] at hs
        cases hs
        have hkeep : Prog.Preserves Slot.exec fun u => s.wire.history <+: u.wire.history :=
          fun _ _ _ _ hu hr => hu.trans (Slot.exec_history hr)
        exact hkeep.run (code hd) (s := s.readied) List.prefix_rfl hrun
    · cases hs
      exact List.prefix_rfl

lemma Slot.taken_pending (hk : ∀ k ∈ ks, k = .again ∨ ∃ c, 0 < c.length ∧ k = .bytes c)
    (hrecvs : s.wire.recvs = ks) (b : Buf) :
    pending ks = (s.taken b).bytes ++ pending (s.taken b).rest ∧
      ∀ k ∈ (s.taken b).rest, k = .again ∨ ∃ c, 0 < c.length ∧ k = .bytes c := by
  unfold Slot.taken
  rw [hrecvs]
  cases ks with
  | nil => exact ⟨rfl, hk⟩
  | cons k ks =>
    have hks : ∀ k ∈ ks, k = .again ∨ ∃ c, 0 < c.length ∧ k = .bytes c := fun k hm =>
      hk k (List.mem_cons_of_mem _ hm)
    rcases hk k List.mem_cons_self with rfl | ⟨c, -, rfl⟩
    · exact ⟨rfl, hks⟩
    · have hp : pending (.bytes c :: ks) = c ++ pending ks := rfl
      have hrest : pending (undelivered c b.window ks) = c.drop b.window ++ pending ks ∧
          ∀ k ∈ undelivered c b.window ks, k = .again ∨ ∃ c, 0 < c.length ∧ k = .bytes c := by
        unfold undelivered
        split_ifs with hd
        · rw [hd]
          exact ⟨rfl, hks⟩
        · refine ⟨rfl, fun k hm => ?_⟩
          rcases List.mem_cons.mp hm with rfl | hm
          · exact .inr ⟨_, List.length_pos_of_ne_nil hd, rfl⟩
          · exact hks k hm
      rw [hp, unixRecv]
      split_ifs with h0
      · refine ⟨?_, hrest.2⟩
        rw [hrest.1, ← List.append_assoc, List.nil_append]
        nth_rewrite 1 [← List.take_append_drop b.window c]
        rw [List.length_eq_zero_iff.mp h0, List.nil_append]
      · refine ⟨?_, hrest.2⟩
        rw [hrest.1, ← List.append_assoc, List.take_append_drop]

lemma processPayload_spoilt {m : ℤ} (hl : Lagging h hdr m ks s) (hready : s.read.ready = true)
    (hk : ∀ k ∈ ks, k = .again ∨ ∃ c, 0 < c.length ∧ k = .bytes c)
    (hshort : m + (pending ks).length < hdr.dlen.toNat) :
    Prog.Ensures Slot.exec (calm True) (fun _ => Spoilt h hdr) adbProcessAdbPayload s := by
  obtain ⟨b, r, hbuf, hcap, hpos, hsize, hdata, hh, hph, hout, hok, hlive⟩ := hl.held
  obtain ⟨bs, hheard⟩ := hl.heard
  have hsome := hl.some
  have hdlen := hdr.dlen.toNat_lt
  have hmax : adbMaxPacketSize = 2^20 := rfl
  have h24 : headerSize = 24 := rfl
  have hbs : bufSize b = b.last - b.pos := rfl
  obtain ⟨hpend, hrest⟩ := Slot.taken_pending hk hl.recvs b
  have hg : Gathering s r b := ⟨hl.live.active, hready, hdata, hbuf, by omega, by omega⟩
  refine processPayload_rule hg trivial (.inl trivial)
    (fun hto => absurd hto (by simp [hl.live.timeout]))
    (fun henough => ?_) (fun _ _ => trivial)
    (fun _ _ _ => ⟨trivial, .lost ⟨_, hheard.fetched b⟩ (if_pos (hl.live.fetched b).active)⟩)
    (fun _ hn _ => ⟨trivial, ?_⟩) fun _ hin hlen hn _ => ⟨trivial, ?_⟩
  · rw [hh] at henough
    omega
  · have hlag : Lagging h hdr (m - 2) (s.taken b).rest (s.advanced b) := by
      refine ⟨(hl.live.fetched b).withBuffer _, (s.fetched_handler b).trans hl.handler,
        ⟨_, r, rfl, hcap, hpos, ?_, hdata, hh, hph, hout, hok, hlive⟩, hsome,
        ⟨_, hheard.fetched b⟩, rfl⟩
      show b.last + (s.taken b).n - b.pos ≤ _
      rw [hn, xdbdAgain]
      omega
    have hle : (pending ks).length = (s.taken b).bytes.length +
      (pending (s.taken b).rest).length := by
      rw [hpend, List.length_append]
    exact .lagging hlag hrest (by omega)
  · have hfits := hin.fits hlen
    have hadv : (s.advanced b).Live := (hl.live.fetched b).withBuffer _
    have hhadv : Heard h (bs ++ (s.taken b).bytes) (s.advanced b) := hheard.fetched b
    refine (takePayload_dispatched (p := True) hadv hdata rfl hcap hout hok hhadv
      (.inl trivial)).mono fun _ u hu => ?_
    obtain ⟨⟨payload, hc, hd⟩, -⟩ := hu
    obtain ⟨new, hnew, hfirst⟩ := hd.first
    refine .wrong hnew hfirst ?_
    have hle : (pending ks).length = (s.taken b).bytes.length +
      (pending (s.taken b).rest).length := by
      rw [hpend, List.length_append]
    rcases hc.live with hcl | ⟨hcl, -⟩
    · rw [hcl, hlive, List.nil_append, Buf.appended, Src.take_length]
      show sizeT (b.last + (s.taken b).n - b.pos) ≠ _
      unfold sizeT
      omega
    · rw [hcl, hlive, List.length_nil]
      omega

lemma Spoilt.readEvent (hsp : Spoilt h hdr s) (hs : s.readEvent = .ok t) : Spoilt h hdr t := by
  cases hsp with
  | lagging lags kinds short =>
    have hl : Lagging h hdr _ _ s.readied :=
      ⟨lags.live.readied, lags.handler, lags.held, lags.some, lags.heard, lags.recvs⟩
    rcases Slot.readEvent_outcome lags.live.index lags.handler
      (processPayload_spoilt hl rfl kinds short) with ⟨t', ht', hq⟩ | ⟨-, e, he⟩
    · rw [hs] at ht'
      cases ht'
      exact hq
    · rw [hs] at he
      cases he
  | lost heard gone =>
    rw [Slot.readEvent, if_pos gone] at hs
    cases hs
    exact .lost heard gone
  | @wrong new hdr' payload history first length =>
    obtain ⟨new', hnew'⟩ := Slot.readEvent_history hs
    refine @Spoilt.wrong h hdr t (new ++ new') hdr' payload ?_ ?_ length
    · rw [← hnew', history, List.append_assoc]
    · rw [dispatches_append]
      cases hd : dispatches new with
      | nil =>
        rw [hd] at first
        cases first
      | cons p ps =>
        rw [hd] at first
        exact first

lemma Spoilt.not_reassembles (hsp : Spoilt h hdr s) (hlen : payload.length = hdr.dlen.toNat) :
    ¬ s.Reassembles n h hdr payload := by
  rintro ⟨t, ht, hd⟩
  induction n generalizing s with
  | zero =>
    cases ht
    exact hsp.not_dispatched hlen hd
  | succ n ih =>
    rw [Slot.readEvents] at ht
    cases he : s.readEvent with
    | error e =>
      rw [he] at ht
      cases ht
    | ok u =>
      rw [he] at ht
      exact ih (hsp.readEvent he) ht

/-! ## Every cut -/

/-- With `got` bytes there, whether the packet will be whole. -/
def Whole (total got : ℕ) (ks : List RecvResult) : Prop :=
  if got < headerSize then Prompt total got ks
  else got = total ∨ ∃ c ks', ks = .bytes c :: ks' ∧ got + c.length = total

lemma prompt_bytes {total got : ℕ} :
    Prompt total got (.bytes c :: ks) ↔ Whole total (got + c.length) ks := Iff.rfl

lemma pending_nil (hk : ∀ k ∈ ks, k = .again ∨ ∃ c, 0 < c.length ∧ k = .bytes c)
    (hp : pending ks = []) : ∀ k ∈ ks, k = .again := by
  intro k hm
  rcases hk k hm with rfl | ⟨c, hc, rfl⟩
  · rfl
  · have hnil : c = [] := List.flatMap_eq_nil_iff.mp hp (.bytes c) hm
    rw [hnil] at hc
    cases hc

/-- The bytes `bs` have arrived of a packet with the header `hdr`, and `ks` bring the rest. -/
structure Parts (hdr : Header) (payload bs : List UInt8) (ks : List RecvResult) : Prop where
  kinds : ∀ k ∈ ks, k = .again ∨ ∃ c, 0 < c.length ∧ k = .bytes c
  bytes : bs ++ pending ks = hdr.bytes ++ payload
  dlen : payload.length = hdr.dlen.toNat
  fits : headerSize + payload.length ≤ adbMaxPacketSize

namespace Parts

lemma length (hp : Parts hdr payload bs ks) :
    bs.length + (pending ks).length = headerSize + payload.length := by
  rw [← List.length_append, hp.bytes, List.length_append, Header.bytes_length]

lemma supply (hp : Parts hdr payload bs ks) : Supply bs.length ks :=
  ⟨hp.kinds, hp.length ▸ hp.fits⟩

lemma again (hp : Parts hdr payload bs ks) {ks' : List RecvResult}
    (hks : ks = .again :: ks' ∨ ks = [] ∧ ks' = []) : Parts hdr payload bs ks' := by
  rcases hks with rfl | ⟨rfl, rfl⟩
  · exact ⟨fun k hm => hp.kinds k (List.mem_cons_of_mem _ hm), hp.bytes, hp.dlen, hp.fits⟩
  · exact hp

lemma next {ks' : List RecvResult} (hp : Parts hdr payload bs ks) (hks : ks = .bytes c :: ks') :
    Parts hdr payload (bs ++ c) ks' := by
  subst hks
  refine ⟨fun k hm => hp.kinds k (List.mem_cons_of_mem _ hm), ?_, hp.dlen, hp.fits⟩
  rw [List.append_assoc]
  exact hp.bytes

lemma headerOf (hp : Parts hdr payload bs ks) (hlen : headerSize ≤ bs.length) :
    headerOf bs = hdr := by
  have htake : bs.take headerSize = hdr.bytes := by
    have := congrArg (List.take headerSize) hp.bytes
    rwa [List.take_append_of_le_length hlen, List.take_left' hdr.bytes_length] at this
  unfold Xdbd.headerOf
  rw [htake, ← List.append_nil hdr.bytes, Header.ofBytes_bytes]

lemma complete (hp : Parts hdr payload bs ks) (hlen : headerSize + payload.length ≤ bs.length) :
    bs = hdr.bytes ++ payload ∧ bs.drop headerSize = payload ∧ ∀ k ∈ ks, k = .again := by
  have hlength := hp.length
  have hnil : pending ks = [] := List.length_eq_zero_iff.mp (by omega)
  have hbytes := hp.bytes
  rw [hnil, List.append_nil] at hbytes
  refine ⟨hbytes, ?_, pending_nil hp.kinds hnil⟩
  rw [hbytes, ← Header.bytes_length hdr, List.drop_left]

end Parts

lemma Headed.reassembles_iff (hh : Headed h bs ks t) (hp : Parts hdr payload bs ks)
    (hgathered : Gathered h bs ks t →
      (t.Reassembles n h hdr payload ↔ Prompt (headerSize + payload.length) bs.length ks)) :
    t.Reassembles n h hdr payload ↔ Whole (headerSize + payload.length) bs.length ks := by
  have hlength := hp.length
  have hdlen := hp.dlen
  unfold Whole
  cases hh with
  | short gathered =>
    rw [if_pos gathered.short]
    exact hgathered gathered
  | opened long opened =>
    rw [if_neg (by omega)]
    rw [hp.headerOf long] at opened
    cases opened with
    | whole enough delivered =>
      obtain ⟨hbs, hpay, hagain⟩ := hp.complete (by omega)
      rw [hpay, hbs] at delivered
      exact iff_of_true (delivered.reassembles hagain) (.inl (by omega))
    | @joined c ks' recvs short delivered =>
      have hp' := hp.next recvs
      by_cases hc : bs.length + c.length = headerSize + payload.length
      · obtain ⟨hbs, hpay, hagain⟩ := hp'.complete (by rw [List.length_append]; omega)
        rw [hpay, hbs] at delivered
        exact iff_of_true (delivered.reassembles hagain) (.inr ⟨c, ks', recvs, hc⟩)
      · refine iff_of_false (Spoilt.not_reassembles ?_ hdlen) ?_
        · obtain ⟨new, hnew, hfirst⟩ := delivered.dispatched.first
          refine .wrong hnew hfirst ?_
          rw [List.length_drop, List.length_append]
          omega
        · rintro (he | ⟨c', ks'', he, hlen⟩)
          · omega
          · rw [recvs] at he
            cases he
            exact hc hlen
    | @lagging ks' recvs short lags =>
      have hp' := hp.again recvs
      have hlength' := hp'.length
      refine iff_of_false (Spoilt.not_reassembles (.lagging lags hp'.kinds (by omega)) hdlen) ?_
      rintro (he | ⟨c, ks'', he, -⟩)
      · omega
      · rcases recvs with hks | ⟨hks, -⟩ <;> rw [hks] at he <;> cases he

lemma Continued.reassembles_iff (hc : Continued h bs ks t) (hp : Parts hdr payload bs ks)
    (hgathered : ∀ bs' ks', Gathered h bs' ks' t → Parts hdr payload bs' ks' →
      ks'.length ≤ ks.length - 1 →
      (t.Reassembles n h hdr payload ↔ Prompt (headerSize + payload.length) bs'.length ks')) :
    t.Reassembles n h hdr payload ↔ Prompt (headerSize + payload.length) bs.length ks := by
  cases hc with
  | @blocked ks' recvs gathered =>
    rw [hgathered bs ks' gathered (hp.again recvs) (by rcases recvs with rfl | ⟨rfl, rfl⟩ <;> simp)]
    rcases recvs with rfl | ⟨rfl, rfl⟩ <;> rfl
  | @filled c ks' recvs headed =>
    have hp' := hp.next recvs
    subst recvs
    rw [headed.reassembles_iff hp' fun hg => hgathered _ _ hg hp' (by simp), prompt_bytes,
      List.length_append]

lemma Gathered.reassembles_iff (hg : Gathered h bs ks s) (hp : Parts hdr payload bs ks)
    (hn : ks.length ≤ n) :
    s.Reassembles n h hdr payload ↔ Prompt (headerSize + payload.length) bs.length ks := by
  induction n generalizing s bs ks with
  | zero =>
    obtain rfl : ks = [] := List.length_eq_zero_iff.mp (by omega)
    refine iff_of_false ?_ id
    rintro ⟨t, ht, hd⟩
    cases ht
    exact hg.heard.not_dispatched hd
  | succ n ih =>
    obtain ⟨t, ht, hc⟩ := hg.readEvent hp.supply
    rw [Slot.reassembles_succ ht]
    exact hc.reassembles_iff hp fun bs' ks' hg' hp' hlen => ih hg' hp' (by omega)

lemma Slot.Waits.reassembles_iff (hw : s.Waits) (hh : Heard h [] s) (hr : s.wire.recvs = ks)
    (hp : Parts hdr payload [] ks) (hn : ks.length ≤ n) :
    s.Reassembles n h hdr payload ↔ Prompt (headerSize + payload.length) 0 ks := by
  induction n generalizing s ks with
  | zero =>
    obtain rfl : ks = [] := List.length_eq_zero_iff.mp (by omega)
    refine iff_of_false ?_ id
    rintro ⟨t, ht, hd⟩
    cases ht
    exact hh.not_dispatched hd
  | succ n ih =>
    obtain ⟨t, ht, ha⟩ := hw.readEvent hh (hr ▸ hp.supply)
    rw [Slot.reassembles_succ ht]
    rw [hr] at ha
    cases ha with
    | @blocked ks' recvs waits rest heard =>
      rw [ih waits heard rest (hp.again recvs) (by rcases recvs with rfl | ⟨rfl, rfl⟩ <;> simp_all)]
      rcases recvs with rfl | ⟨rfl, rfl⟩ <;> rfl
    | @started c ks' recvs result =>
      have hp' := hp.next recvs
      rw [List.nil_append] at hp'
      have hlen : ks'.length ≤ n := by
        rw [recvs, List.length_cons] at hn
        omega
      rw [recvs, prompt_bytes, Nat.zero_add]
      rcases result with ⟨-, headed⟩ | ⟨hshort, continued⟩
      · exact headed.reassembles_iff hp' fun hg => hg.reassembles_iff hp' hlen
      · rw [continued.reassembles_iff hp' fun bs' ks'' hg' hp'' hle =>
          hg'.reassembles_iff hp'' (by omega)]
        unfold Whole
        rw [if_pos hshort]

/-- A packet that arrives alone is dispatched once, whole and after its last byte, exactly if the
result that completes its header completes the packet, or the next result does. -/
theorem Slot.reassembled_iff (hw : s.Waits) (hcut : Cut (hdr.bytes ++ payload) s.wire.recvs)
    (hdlen : payload.length = hdr.dlen.toNat)
    (hfit : headerSize + payload.length ≤ adbMaxPacketSize)
    (hn : s.wire.recvs.length ≤ n) :
    s.Reassembles n s.wire.history hdr payload ↔
      Prompt (headerSize + payload.length) 0 s.wire.recvs :=
  hw.reassembles_iff ⟨[], (List.append_nil _).symm, rfl, rfl⟩ rfl
    ⟨hcut.kinds, hcut.bytes, hdlen, hfit⟩ hn

/-- An accepted connection that waits, with the answers `ks` of `recv` to come. -/
def waitingSlot (ks : List RecvResult) : Slot :=
  ⟨{ Connection.zero 5 with unixIo := true, listening := some 0 },
    { Event.zero with
      active := true, index := some 0, handler := some (.adb .adbWaitApacketHandler) },
    { Event.zero with write := true }, { Wire.fresh with recvs := ks }⟩

lemma waits_waitingSlot (ks : List RecvResult) : (waitingSlot ks).Waits where
  live := ⟨⟨rfl, rfl, by simp [waitingSlot], by simp [waitingSlot, Connection.zero],
    fun m hm => by cases hm⟩, rfl, rfl, by simp [waitingSlot]⟩
  handler := rfl
  cap b hb := by cases hb

/-- A header with a length and nothing else. -/
def writeHeader (dlen : UInt32) : Header := ⟨pcmdWrte, 1, 1, dlen, 0, ~~~pcmdWrte⟩

/-- Header and payload in two results. -/
theorem Slot.reassembled_iff_two :
    (waitingSlot [.bytes (writeHeader 2).bytes, .bytes [7, 9]]).Reassembles 2 [] (writeHeader 2)
    [7, 9] := by
  refine (Slot.reassembled_iff (waits_waitingSlot _) ⟨fun k hk => ?_, rfl⟩ rfl (by decide)
    (by decide)).mpr (.inr ⟨[7, 9], [], rfl, rfl⟩)
  simp only [waitingSlot, List.mem_cons, List.not_mem_nil, or_false] at hk
  rcases hk with rfl | rfl <;> exact .inr ⟨_, by decide, rfl⟩

/-- The payload in two results: it is dispatched after the first. -/
theorem payload_split : ¬ ∀ (s : Slot) (hdr : Header) (payload : List UInt8) (n : ℕ), s.Waits →
    Cut (hdr.bytes ++ payload) s.wire.recvs → hdr.magic = ~~~hdr.pcmd →
      payload.length = hdr.dlen.toNat → headerSize + payload.length ≤ adbMaxPacketSize →
        s.wire.recvs.length ≤ n → s.Reassembles n s.wire.history hdr payload := fun h => by
  have hkinds : ∀ k ∈ [RecvResult.bytes (writeHeader 2).bytes, .bytes [7], .bytes [9]],
      k = .again ∨ ∃ c, 0 < c.length ∧ k = .bytes c := by
    intro k hk
    simp only [List.mem_cons, List.not_mem_nil, or_false] at hk
    rcases hk with rfl | rfl | rfl <;> exact .inr ⟨_, by decide, rfl⟩
  have hsplit := h (waitingSlot [.bytes (writeHeader 2).bytes, .bytes [7], .bytes [9]])
    (writeHeader 2) [7, 9] 3 (waits_waitingSlot _) ⟨hkinds, rfl⟩ rfl rfl (by decide) (by decide)
  have hprompt := ((waits_waitingSlot _).reassembles_iff ⟨[], rfl, rfl, rfl⟩ rfl
    ⟨hkinds, rfl, rfl, by decide⟩ (by decide)).mp hsplit
  rcases hprompt with hlen | ⟨c, ks, hks, hlen⟩
  · exact absurd hlen (by decide)
  · cases hks
    exact absurd hlen (by decide)

end Xdbd
