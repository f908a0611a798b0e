import Xdbd.Table

/-!
# A handler touches its own connection only

The program of a read handler, run on the whole daemon, keeps the table and does to its
slot what it does to that slot by itself; of the other slots only registry positions change.
-/
namespace Xdbd
open Interaction LinkedChain

/-- A slot that `xdbd_close_connection` has put on the free list before `d`. -/
def Slot.close (s : Slot) (d : Data) : Slot :=
  { s with
    conn := { s.conn with data := d, fd := -1 }
    read := { s.read with closed := true }
    write := { s.write with closed := true } }

def Slot.destroy (s : Slot) : Slot := { s with conn := { s.conn with destroyed := true } }

namespace World
variable {w w' : World} {free : List ℕ}

/-- From `w` to `w'` only the connection `i` went on: the others at most moved in the
registry. -/
structure Frame (i : ℕ) (w w' : World) : Prop where
  others : ∀ j ≠ i, SameButIndex (w.slots j) (w'.slots j)
  accepted : (w'.slots i).read.accepted = (w.slots i).read.accepted
  readPosted : (w'.slots i).read.posted = (w.slots i).read.posted
  writePosted : (w'.slots i).write.posted = (w.slots i).write.posted
  listeningOf : (w'.slots i).conn.listening = (w.slots i).conn.listening
  fd : (w'.slots i).conn.fd = (w.slots i).conn.fd ∨ (w'.slots i).conn.fd = -1
  connectionN : w'.connectionN = w.connectionN
  issued : w'.issued = w.issued
  listening : w'.listening = w.listening
  postedAcceptEvents : w'.postedAcceptEvents = w.postedAcceptEvents
  postedEvents : w'.postedEvents = w.postedEvents
  nextPool : w'.nextPool = w.nextPool
  fdArgs : ∀ s ∈ w'.fdArgs, s ∈ w.fdArgs ∨ 0 ≤ s ∧ s = (w.slots i).conn.fd
  boundFds : ∀ s ∈ w.boundFds, 0 ≤ s → s ≠ (w.slots i).conn.fd → s ∈ w'.boundFds
  pool : (w'.slots i).conn.pool = (w.slots i).conn.pool
  tempPool : (w'.slots i).conn.tempPool = (w.slots i).conn.tempPool
  livePools : w'.livePools = w.livePools ∧
      (w'.slots i).conn.destroyed = (w.slots i).conn.destroyed ∨
    w'.livePools = w.livePools \ (w.slots i).pools.toFinset ∧ (w'.slots i).conn.destroyed = true

lemma Frame.refl (i : ℕ) (w : World) : Frame i w w :=
  ⟨fun _ _ => .refl _, rfl, rfl, rfl, rfl, .inl rfl, rfl, rfl, rfl, rfl, rfl, rfl,
    fun _ hs => .inl hs, fun _ hs _ _ => hs, rfl, rfl, .inl ⟨rfl, rfl⟩⟩

lemma Frame.pools {i : ℕ} (h : Frame i w w') : (w'.slots i).pools = (w.slots i).pools := by
  rw [Slot.pools, h.pool, h.tempPool]
  rfl

lemma Frame.trans {i : ℕ} {u v w : World} (h : Frame i u v) (h' : Frame i v w) :
    Frame i u w where
  others j hj := (h.others j hj).trans (h'.others j hj)
  accepted := h'.accepted.trans h.accepted
  readPosted := h'.readPosted.trans h.readPosted
  writePosted := h'.writePosted.trans h.writePosted
  listeningOf := h'.listeningOf.trans h.listeningOf
  fd := by
    rcases h'.fd with hf | hf
    · exact h.fd.imp hf.trans hf.trans
    · exact .inr hf
  connectionN := h'.connectionN.trans h.connectionN
  issued := h'.issued.trans h.issued
  listening := h'.listening.trans h.listening
  postedAcceptEvents := h'.postedAcceptEvents.trans h.postedAcceptEvents
  postedEvents := h'.postedEvents.trans h.postedEvents
  nextPool := h'.nextPool.trans h.nextPool
  fdArgs s hs := by
    rcases h'.fdArgs s hs with hs | ⟨hpos, hs⟩
    · exact h.fdArgs s hs
    · rcases h.fd with hf | hf
      · exact .inr ⟨hpos, hs.trans hf⟩
      · omega
  boundFds s hs hpos hne := by
    refine h'.boundFds s (h.boundFds s hs hpos hne) hpos fun he => ?_
    rcases h.fd with hf | hf
    · exact hne (he.trans hf)
    · omega
  pool := h'.pool.trans h.pool
  tempPool := h'.tempPool.trans h.tempPool
  livePools := by
    have hp := h.pools
    rcases h.livePools with ⟨hl, hd⟩ | ⟨hl, hd⟩ <;>
      rcases h'.livePools with ⟨hl', hd'⟩ | ⟨hl', hd'⟩
    · exact .inl ⟨hl'.trans hl, hd'.trans hd⟩
    · exact .inr ⟨by rw [hl', hl, hp], hd'⟩
    · exact .inr ⟨hl'.trans hl, hd'.trans hd⟩
    · exact .inr ⟨by rw [hl', hl, hp, Finset.sdiff_idem], hd'⟩

lemma Frame.peer {i : ℕ} (h : Frame i w w') (hp : w.Peer i) : w'.Peer i :=
  ⟨h.issued ▸ hp.issued, h.accepted.trans hp.accepted, by rw [h.listeningOf]; exact hp.listening⟩

lemma Frame.modSlot {i : ℕ} {s : Slot} (hf : SameFrame (w.slots i) s) :
    Frame i w (w.modSlot i fun _ => s) where
  others j hj := by
    rw [slots_modSlot, if_neg hj]
    exact .refl _
  accepted := by rw [slots_modSlot, if_pos rfl, hf.read]
  readPosted := by rw [slots_modSlot, if_pos rfl, hf.read]
  writePosted := by rw [slots_modSlot, if_pos rfl, hf.write]
  listeningOf := by rw [slots_modSlot, if_pos rfl, hf.conn]
  fd := .inl (by rw [slots_modSlot, if_pos rfl, hf.conn])
  connectionN := rfl
  issued := rfl
  listening := rfl
  postedAcceptEvents := rfl
  postedEvents := rfl
  nextPool := rfl
  fdArgs _ hs := .inl hs
  boundFds _ hs _ _ := hs
  pool := by rw [slots_modSlot, if_pos rfl, hf.conn]
  tempPool := by rw [slots_modSlot, if_pos rfl, hf.conn]
  livePools := .inl ⟨rfl, by rw [slots_modSlot, if_pos rfl, hf.conn]⟩

lemma Table.frame_removed (h : Table w free) {i k : ℕ} (hp : w.Peer i) (hi : i ∉ free)
    (hk : (w.slots i).read.index = some k) : Frame i w (w.removed (.read i) k .read) := by
  have hu : w.InUse free i := ⟨hp.issued, hi⟩
  have hs := (h.unregister_removed hu hk).similar
  have hr := congrArg Event.posted (h.unregister_removed hu hk).read
  have hw := congrArg Event.posted (h.unregister_removed hu hk).write
  refine ⟨fun j hj => h.sameButIndex_removed hu hk hj, hs.accepted, hr, hw, ?_, .inl ?_, rfl, rfl,
    rfl, rfl, rfl, rfl, fun s hs => ?_, fun _ hs _ _ => hs, ?_, ?_, .inl ⟨rfl, ?_⟩⟩
  · rw [conn_removed]
  · rw [conn_removed]
  · rcases Finset.mem_insert.mp hs with rfl | hs
    · exact .inr ⟨(h.peer_entry hp hi).2.2.1, rfl⟩
    · exact .inl hs
  · rw [conn_removed]
  · rw [conn_removed]
  · rw [conn_removed]

lemma Table.selectDelEvent (h : Table w free) {i : ℕ} (hp : w.Peer i) (hi : i ∉ free) :
    let w' := (w.selectDelEvent (.read i) .read).2
    Table w' free ∧ Frame i w w' ∧ SameTables w w' ∧ w'.openFds = w.openFds ∧
      w'.boundFds = w.boundFds ∧ w'.livePools = w.livePools ∧
      SameButIndex { w.slots i with read := { (w.slots i).read with index := none } }
        (w'.slots i) := by
  have hu : w.InUse free i := ⟨hp.issued, hi⟩
  cases hk : (w.slots i).read.index with
  | none =>
    rw [@selectDelEvent_of_notMem w (.read i) .read hk]
    have hs : w.slots i = { w.slots i with read := { (w.slots i).read with index := none } } := by
      rw [← hk]
    exact ⟨h, .refl i w, ⟨rfl, rfl, rfl, rfl⟩, rfl, rfl, rfl, hs ▸ .refl _⟩
  | some k =>
    rw [@selectDelEvent_eq w (.read i) k .read hk]
    have hs := h.unregister_removed hu hk
    exact ⟨h.removed hp hi hk, h.frame_removed hp hi hk, ⟨rfl, rfl, rfl, rfl⟩, rfl, rfl, rfl, hs⟩

/-! ## Closing a connection -/

/-- The table after an accepted connection, whose read event is out of the registry, has been
released. -/
def release (w : World) (i : ℕ) : World :=
  { w.modSlot i fun s => (s.close (nextData w.freeConnections)).destroy with
    freeConnections := some i
    freeConnectionN := (w.freeConnectionN + 1) % 2^32
    openFds := w.openFds.erase (w.slots i).conn.fd
    boundFds := w.boundFds.erase (w.slots i).conn.fd
    livePools := w.livePools \ (w.slots i).pools.toFinset }

lemma slots_release (i j : ℕ) (h : j ≠ i) : (w.release i).slots j = w.slots j :=
  Function.update_of_ne h _ _

lemma length_le_of_nodup {l : List ℕ} {n : ℕ} (hl : l.Nodup) (hn : ∀ i ∈ l, i < n) :
    l.length ≤ n := by
  rw [← List.toFinset_card_of_nodup hl, ← Finset.card_range n]
  exact Finset.card_le_card fun i hi => Finset.mem_range.mpr (hn i (List.mem_toFinset.mp hi))

lemma Registry.shrink {dom dom' : Set Ev} (h : Registry dom w)
    (hsub : ∀ e ∈ dom', e ∈ dom) (hmem : ∀ e ∈ w.registered, e ∈ dom') : Registry dom' w :=
  ⟨h.dense.change_dom (fun k hk => hmem _ (DenseIndex.mem_members.mpr ⟨k, hk, rfl⟩))
    fun e he hne => absurd (hsub e he) hne, h.masterRead, h.masterWrite, h.maxFd⟩

lemma inUse_release {i j : ℕ} :
    (w.release i).InUse (i :: free) j ↔ j ≠ i ∧ w.InUse free j := by
  simp only [InUse, World.release, List.mem_cons, not_or]
  tauto

lemma Table.registry_release (h : Table w free) {i : ℕ}
    (hidx : (w.slots i).read.index = none) :
    Registry ((w.release i).usedEvents (i :: free)) (w.release i) := by
  have hmem : ∀ e ∈ w.registered, e.slot ≠ i := by
    intro e he hs
    obtain ⟨j, rfl⟩ := h.registered_read he
    obtain rfl : j = i := hs
    exact (h.registered_iff.mp he).2 hidx
  have hshrink : Registry ((w.release i).usedEvents (i :: free)) w := by
    refine h.registry.shrink (fun e he => (inUse_release.mp he).2) fun e he => ?_
    exact inUse_release.mpr ⟨hmem e he, h.registered_inUse he⟩
  refine hshrink.congr (fun e he => ?_) (fun e he => ?_) rfl rfl rfl rfl rfl
  · have hs := @slots_release w i e.slot (inUse_release.mp he).1
    cases e <;> simp only [event, Ev.slot] at hs ⊢ <;> rw [hs]
  · simp only [fd]
    rw [slots_release i e.slot (hmem e he)]

theorem Table.release (h : Table w free) {i : ℕ} (hi : w.InUse free i)
    (hpos : 0 ≤ (w.slots i).conn.fd) (hidx : (w.slots i).read.index = none) :
    Table (w.release i) (i :: free) := by
  have hlt : ∀ j ∈ i :: free, j < w.connectionN := by
    intro j hj
    rcases List.mem_cons.mp hj with rfl | hj
    · exact h.inTable j (.inr hi.1)
    · exact h.inTable j (.inl hj)
  have hnodup : (i :: free).Nodup := List.nodup_cons.mpr ⟨hi.2, h.nodup⟩
  refine {
    chain := ?_
    nodup := hnodup
    inTable := ?_
    unissued := fun j hj hni => List.mem_cons_of_mem _ (h.unissued j hj hni)
    count := ?_
    size := h.size
    freeFd := ?_
    released := ?_
    entry := ?_
    registry := h.registry_release hidx
    fds := ?_
    pools := ?_
    poolsLt := fun p hp => h.poolsLt p (Finset.sdiff_subset hp) }
  · refine h.chain.push ?_ fun j hj => link_congr ?_
    · simp only [link, World.release, slots_modSlot, if_true, Slot.close, Slot.destroy, nextData]
      cases w.freeConnections <;> rfl
    · rw [slots_release i j fun hji => hi.2 (hji ▸ hj)]
  · exact fun j hj => hj.elim (hlt j) fun hj => h.inTable j (.inr hj)
  · show (w.freeConnectionN + 1) % 2^32 = free.length + 1
    have hlen : free.length + 1 ≤ w.connectionN := length_le_of_nodup hnodup hlt
    have hsize := h.size
    rw [h.count, Nat.mod_eq_of_lt (by omega)]
  · intro j hj
    by_cases hji : j = i
    · simp [World.release, Slot.close, Slot.destroy, hji]
    · rw [slots_release i j hji]
      exact h.freeFd j ((List.mem_cons.mp hj).resolve_left hji)
  · intro j hj hjs
    by_cases hji : j = i
    · simp [World.release, Slot.close, Slot.destroy, hji]
    · rw [slots_release i j hji]
      exact h.released j ((List.mem_cons.mp hj).resolve_left hji) hjs
  · intro j hj
    obtain ⟨hji, hj⟩ := inUse_release.mp hj
    rw [slots_release i j hji]
    refine (h.entry j hj).mono (fun hf => ?_) fun p hp hl => ?_
    · refine Finset.mem_erase.mpr ⟨fun he => ?_, hf⟩
      exact hji (h.fds j i hj hi he (by omega))
    · refine Finset.mem_sdiff.mpr ⟨hl, fun hpi => ?_⟩
      exact h.pools j i hj hi hji hp (List.mem_toFinset.mp hpi)
  · intro j k hj hk hfd hne
    obtain ⟨hji, hj⟩ := inUse_release.mp hj
    obtain ⟨hki, hk⟩ := inUse_release.mp hk
    rw [slots_release i j hji] at hfd hne
    rw [slots_release i k hki] at hfd
    exact h.fds j k hj hk hfd hne
  · intro j k hj hk hjk
    obtain ⟨hji, hj⟩ := inUse_release.mp hj
    obtain ⟨hki, hk⟩ := inUse_release.mp hk
    rw [slots_release i j hji, slots_release i k hki]
    exact h.pools j k hj hk hjk

lemma selectDelEvent_modConn (i : ℕ) (ev : Ev) (d : Dir) {f : Connection → Connection}
    (hf : ∀ c, (f c).fd = c.fd) :
    (w.modConn i f).selectDelEvent ev d =
      ((w.selectDelEvent ev d).1, (w.selectDelEvent ev d).2.modConn i f) := by
  have hfd : (w.modConn i f).fd ev = w.fd ev := by
    simp only [fd, conn_modConn]
    split_ifs with h
    · rw [hf, h]
    · rfl
  cases hk : (w.event ev).index with
  | none =>
    rw [selectDelEvent_of_notMem d hk, selectDelEvent_of_notMem d (by rw [event_modConn, hk])]
  | some k =>
    rw [selectDelEvent_eq d hk, selectDelEvent_eq d (by rw [event_modConn, hk])]
    refine Prod.ext rfl ?_
    apply World.ext <;> try rfl
    · apply slots_ext
      · intro j
        simp only [conn_removed, conn_modConn]
      · intro e
        simp only [event_removed, event_modConn]
        rfl
      · intro j
        simp only [wire_removed, wire_modConn]
    all_goals simp only [World.removed, hfd]; rfl

lemma modSlot_modSlot (i : ℕ) (f g : Slot → Slot) :
    (w.modSlot i f).modSlot i g = w.modSlot i (g ∘ f) := by
  simp [modSlot]

lemma closeConnection_eq {v : World} {i : ℕ} (hfd : (w.slots i).conn.fd ≠ -1)
    (hr : (w.event (.read i)).active = true) (hv : (w.selectDelEvent (.read i) .read).2 = v)
    (hw : (v.event (.write i)).active = false) :
    w.closeConnection i =
      { v.modSlot i (Slot.close · (nextData v.freeConnections)) with
        freeConnections := some i
        freeConnectionN := (v.freeConnectionN + 1) % 2^32
        openFds := v.openFds.erase (v.slots i).conn.fd
        boundFds := v.boundFds.erase (v.slots i).conn.fd } := by
  unfold World.closeConnection
  rw [if_neg hfd]
  simp only [hr, hv, hw, if_true]
  rw [if_neg Bool.false_ne_true]
  have hfd' : ((((v.modEvent (.read i) fun e => { e with closed := true }).modEvent (.write i)
      fun e => { e with closed := true }).freeConnection i).slots i).conn.fd =
      (v.slots i).conn.fd := by
    simp [freeConnection, modEvent, modConn, Ev.slot]
  have hslots : ((((v.modEvent (.read i) fun e => { e with closed := true }).modEvent (.write i)
      fun e => { e with closed := true }).freeConnection i).modConn i
      fun c => { c with fd := -1 }).slots =
      (v.modSlot i (Slot.close · (nextData v.freeConnections))).slots := by
    funext j
    by_cases hj : j = i
    · subst hj
      simp [freeConnection, modEvent, modConn, modSlot, Ev.slot, Slot.close]
    · simp [freeConnection, modEvent, modConn, modSlot, Ev.slot, hj]
  rw [hfd']
  apply World.ext <;> try rfl
  exact hslots

/-- Closing an accepted connection succeeds: its event leaves the registry, and its slot, its
descriptor and its pools are released. -/
theorem Table.adbCloseConnection (h : Table w free) {i : ℕ} (hp : w.Peer i) (hi : i ∉ free) :
    w.adbCloseConnection i = .ok ((w.selectDelEvent (.read i) .read).2.release i) := by
  obtain ⟨hactive, -, hpos, hpool, htemp, -⟩ := h.peer_entry hp hi
  obtain ⟨hv, -, -, -, -, hlive, hslot⟩ := h.selectDelEvent hp hi
  have hentry := h.entry i ⟨hp.issued, hi⟩
  set v := (w.selectDelEvent (.read i) .read).2 with hvdef
  obtain ⟨p, hp'⟩ := Option.ne_none_iff_exists'.mp hpool
  obtain ⟨q, hq⟩ := Option.ne_none_iff_exists'.mp htemp
  obtain ⟨ls, hls⟩ := Option.ne_none_iff_exists'.mp hp.listening
  have hpools : (w.slots i).pools = [p, q] := by simp [Slot.pools, hp', hq]
  have hpq : p ≠ q := by
    have := hentry.nodup
    rw [hpools] at this
    simpa using this
  have hpl : p ∈ w.livePools := hentry.pools p (by simp [hpools])
  have hql : q ∈ w.livePools := hentry.pools q (by simp [hpools])
  have hconn : (v.slots i).conn = (w.slots i).conn := hslot.conn
  have hwactive : (v.slots i).write.active = false :=
    hslot.similar.writeActive.trans hentry.writeActive
  unfold World.adbCloseConnection
  simp only [conn_modConn, if_true, hls, hp', hq]
  have hclose : (w.modConn i fun c => { c with destroyed := true }).closeConnection i =
      { v.release i with livePools := w.livePools } := by
    have hne : (w.slots i).conn.fd ≠ -1 := by omega
    have hdel := @selectDelEvent_modConn w i (.read i) .read (fun c => { c with destroyed := true })
      fun c => rfl
    rw [closeConnection_eq (by rw [conn_modConn, if_pos rfl]; exact hne)
      (by rw [event_modConn]; exact hactive) (congrArg Prod.snd hdel)
      (by rw [event_modConn]; exact hwactive)]
    have hfd : ((v.modConn i fun c => { c with destroyed := true }).slots i).conn.fd =
        (v.slots i).conn.fd := by rw [conn_modConn, if_pos rfl]
    apply World.ext <;> try rfl
    · simp only [modConn, modSlot_modSlot]
      rfl
    · exact congrArg v.openFds.erase hfd
    · exact congrArg v.boundFds.erase hfd
    · exact hlive
  have hq' : q ∈ w.livePools.erase p := Finset.mem_erase.mpr ⟨hpq.symm, hql⟩
  rw [hclose]
  simp only [destroyPool, hpl, if_true]
  show (if q ∈ w.livePools.erase p then _ else _) = _
  rw [if_pos hq']
  refine congrArg Except.ok ?_
  apply World.ext <;> try rfl
  show (w.livePools.erase p).erase q = v.livePools \ (v.slots i).pools.toFinset
  have hvp : (v.slots i).pools = [p, q] := by rw [Slot.pools, hconn, ← hpools]; rfl
  rw [hvp, hlive]
  ext x
  simp only [Finset.mem_erase, Finset.mem_sdiff, List.mem_toFinset, List.mem_cons,
    List.not_mem_nil, or_false, not_or]
  tauto

lemma slots_release_self (i : ℕ) :
    (w.release i).slots i = ((w.slots i).close (nextData w.freeConnections)).destroy := by
  show ((w.modSlot i fun s => (s.close (nextData w.freeConnections)).destroy).slots i) = _
  rw [slots_modSlot, if_pos rfl]

lemma Frame.release {i : ℕ} : Frame i w (w.release i) where
  others j hj := by
    rw [slots_release i j hj]
    exact .refl _
  accepted := by rw [slots_release_self]; rfl
  readPosted := by rw [slots_release_self]; rfl
  writePosted := by rw [slots_release_self]; rfl
  listeningOf := by rw [slots_release_self]; rfl
  fd := .inr (by rw [slots_release_self]; rfl)
  connectionN := rfl
  issued := rfl
  listening := rfl
  postedAcceptEvents := rfl
  postedEvents := rfl
  nextPool := rfl
  fdArgs _ hs := .inl hs
  boundFds _ hs _ hne := Finset.mem_erase.mpr ⟨hne, hs⟩
  pool := by rw [slots_release_self]; rfl
  tempPool := by rw [slots_release_self]; rfl
  livePools := .inr ⟨rfl, by rw [slots_release_self]; rfl⟩

lemma nextData_norm (head : Option ℕ) : (nextData head).norm = .null := by
  cases head <;> rfl

lemma norm_release {i : ℕ} {s : Slot}
    (hs : SameButIndex { s with read := { s.read with index := none } } (w.slots i))
    (hr : s.read.active = true) (hwa : s.write.active = false) :
    ((w.release i).slots i).norm = s.norm.closed := by
  have hread : (w.slots i).read.norm = { s.read.norm with index := none } := hs.read
  have hwrite : (w.slots i).write.norm = s.write.norm := hs.write
  rw [slots_release_self]
  apply slot_ext
  · show { (w.slots i).conn with
      data := (nextData w.freeConnections).norm, fd := -1, destroyed := true } = _
    rw [nextData_norm, hs.conn]
    rfl
  · show { (w.slots i).read.norm with closed := true } = _
    rw [hread]
    simp [Slot.closed, Slot.norm, Event.norm, hr]
  · show { (w.slots i).write.norm with closed := true } = _
    rw [hwrite]
    simp [Slot.closed, Slot.norm, Event.norm, hwa]
  · exact hs.wire

/-! ## The simulation -/

/-- What is left of a connection that its own handler has closed. -/
structure Released (w : World) (i : ℕ) : Prop where
  active : (w.slots i).read.active = true
  index : (w.slots i).read.index = none
  pool : ∀ p, (w.slots i).conn.pool = some p → p ∉ w.livePools

/-- The daemon in the state `w`, in the course of a handler of the connection `i` that was
called in `w₀`, and the slot by itself. -/
structure Linked (i : ℕ) (w₀ w : World) (s : Slot) : Prop where
  table : ∃ free, w.Table free ∧ (i ∈ free → w.Released i)
  peer : w.Peer i
  frame : Frame i w₀ w
  norm : s = (w.slots i).norm

variable {i : ℕ} {w₀ : World}

lemma Linked.slotOp {s : Slot} (h : Linked i w₀ w s) (o : SlotOp) :
    Prog.Agree (Linked i w₀) (w.exec i (.slot o)) (Slot.exec (.slot o) s) := by
  obtain ⟨free, ht, hrel⟩ := h.table
  have hagree := SlotOp.exec_norm o (w.slots i)
  rw [← h.norm] at hagree
  unfold World.exec Slot.exec
  rcases hagree.cases with ⟨e, e', hx, hy⟩ | ⟨a, t, t', hx, hy, rfl⟩
  · simp only [hx, hy]
    trivial
  · have hf := SlotOp.exec_frame hx
    simp only [hx, hy]
    have hslot : (w.modSlot i fun _ => t).slots i = t := by rw [slots_modSlot, if_pos rfl]
    refine ⟨rfl, ⟨free, ht.modSlot hf h.peer.accepted h.peer.issued, fun hi => ?_⟩, ?_,
      h.frame.trans (.modSlot hf), by rw [hslot]⟩
    · obtain ⟨ha, hx, hp⟩ := hrel hi
      exact ⟨by rw [hslot, hf.read]; exact ha, by rw [hslot, hf.read]; exact hx,
        fun p hp' => hp p (by rw [hslot, hf.conn] at hp'; exact hp')⟩
    · exact (Frame.modSlot hf).peer h.peer

lemma Linked.handleReadEvent {s : Slot} (h : Linked i w₀ w s) (flags : ℕ) :
    Prog.Agree (Linked i w₀) (w.exec i (.handleReadEvent flags))
      (Slot.exec (.handleReadEvent flags) s) := by
  obtain ⟨free, ht, hrel⟩ := h.table
  have hactive : (w.slots i).read.active = true := by
    by_cases hi : i ∈ free
    · exact (hrel hi).active
    · exact (ht.peer_entry h.peer hi).1
  have hw : w.handleReadEvent (.read i) (flags % 2 = 1) = (.ok, w) := by
    unfold World.handleReadEvent
    rw [if_neg fun hc => by
      rw [show (w.event (.read i)).active = true from hactive] at hc
      simp at hc]
  have hs : s.handleReadEvent (flags % 2 = 1) = (.ok, s) := by
    unfold Slot.handleReadEvent
    rw [if_neg fun hc => by
      rw [show s.read.active = true by rw [h.norm]; exact hactive] at hc
      simp at hc]
  show Prog.Agree _ (.ok (w.handleReadEvent (.read i) (flags % 2 = 1)))
    (.ok (s.handleReadEvent (flags % 2 = 1)))
  rw [hw, hs]
  exact ⟨rfl, h⟩

lemma Linked.delReadEvent {s : Slot} (h : Linked i w₀ w s) :
    Prog.Agree (Linked i w₀) (w.exec i .delReadEvent) (Slot.exec .delReadEvent s) := by
  obtain ⟨free, ht, hrel⟩ := h.table
  have hidx : s.read.index = none ↔ (w.slots i).read.index = none := by
    rw [h.norm]
    exact Event.norm_index_none _
  show Prog.Agree _ (.ok (w.selectDelEvent (.read i) .read)) (.ok s.delRead)
  cases hk : (w.slots i).read.index with
  | none =>
    have hw : w.selectDelEvent (.read i) .read = (.err, w) := selectDelEvent_of_notMem .read hk
    have hs : s.delRead = (.err, s) := if_pos (hidx.mpr hk)
    rw [hw, hs]
    exact ⟨rfl, h⟩
  | some k =>
    have hi : i ∉ free := fun hi => by simp [(hrel hi).index] at hk
    obtain ⟨ht', hf, -, -, -, -, hslot⟩ := ht.selectDelEvent h.peer hi
    have hw : w.selectDelEvent (.read i) .read = (.ok, (w.selectDelEvent (.read i) .read).2) := by
      rw [@selectDelEvent_eq w (.read i) k .read hk]
    have hs : s.delRead = (.ok, { s with read := { s.read with index := none } }) :=
      if_neg fun hn => by simp [hidx.mp hn] at hk
    rw [hw, hs]
    refine ⟨rfl, ⟨free, ht', fun hi' => absurd hi' hi⟩, hf.peer h.peer, h.frame.trans hf, ?_⟩
    rw [hslot.norm, h.norm]
    rfl

lemma Linked.closeConnection {s : Slot} (h : Linked i w₀ w s) :
    Prog.Agree (Linked i w₀) (w.exec i .closeConnection) (Slot.exec .closeConnection s) := by
  obtain ⟨free, ht, hrel⟩ := h.table
  have hls : s.conn.listening ≠ none := by
    rw [h.norm]
    exact h.peer.listening
  have hfd : s.conn.fd = (w.slots i).conn.fd := by rw [h.norm]; rfl
  show Prog.Agree _ (w.adbCloseConnection i >>= fun w => .ok ((), w))
    (if s.conn.listening = none then .error .nullDeref
      else if s.conn.fd = -1 then .error .doubleFree else .ok ((), s.closed))
  by_cases hi : i ∈ free
  · -- a second close finds the pool destroyed
    have hneg : (w.slots i).conn.fd = -1 := ht.freeFd i hi
    have hw : ∃ e, w.adbCloseConnection i = .error e := by
      obtain ⟨ls, hl⟩ := Option.ne_none_iff_exists'.mp h.peer.listening
      have hclose : (w.modConn i fun c => { c with destroyed := true }).closeConnection i =
          w.modConn i fun c => { c with destroyed := true } := by
        unfold World.closeConnection
        rw [if_pos (by rw [conn_modConn, if_pos rfl]; exact hneg)]
      unfold World.adbCloseConnection
      simp only [conn_modConn, if_true, hl, hclose]
      cases hp : (w.slots i).conn.pool with
      | none => exact ⟨_, rfl⟩
      | some p =>
        refine ⟨.doubleFree, ?_⟩
        show (if p ∈ w.livePools then _ else _) >>= _ = _
        rw [if_neg ((hrel hi).pool p hp)]
        rfl
    obtain ⟨e, he⟩ := hw
    rw [he, if_neg hls, if_pos (hfd.trans hneg)]
    trivial
  · obtain ⟨hactive, -, hpos, -⟩ := ht.peer_entry h.peer hi
    obtain ⟨ht', hf, -, hopen, hbound, hlive, hslot⟩ := ht.selectDelEvent h.peer hi
    rw [ht.adbCloseConnection h.peer hi, if_neg hls, if_neg (by omega)]
    set v := (w.selectDelEvent (.read i) .read).2
    have hentry := ht.entry i ⟨h.peer.issued, hi⟩
    have hu : v.InUse free i := ⟨by rw [hf.issued]; exact h.peer.issued, hi⟩
    have hvpos : 0 ≤ (v.slots i).conn.fd := by
      rw [hslot.conn]
      exact hpos
    have hvidx : (v.slots i).read.index = none := hslot.similar.readIndex.mpr rfl
    have hframe : Frame i w (v.release i) := hf.trans .release
    refine ⟨rfl, ⟨i :: free, ht'.release hu hvpos hvidx, fun _ => ⟨?_, ?_, fun p hp hl => ?_⟩⟩,
      hframe.peer h.peer, h.frame.trans hframe, ?_⟩
    · rw [slots_release_self]
      exact hslot.similar.readActive.trans hactive
    · rw [slots_release_self]
      exact hvidx
    · rw [slots_release_self] at hp
      have hvp : (v.slots i).conn.pool = some p := hp
      refine (Finset.mem_sdiff.mp hl).2 (List.mem_toFinset.mpr ?_)
      simp [Slot.pools, hvp]
    · rw [norm_release hslot hactive hentry.writeActive, h.norm]

theorem linked_simulates (i : ℕ) (w₀ : World) :
    Prog.Simulates (World.exec i) Slot.exec (Linked i w₀) := by
  intro op w s h
  cases op with
  | slot o => exact h.slotOp o
  | handleReadEvent flags => exact h.handleReadEvent flags
  | delReadEvent => exact h.delReadEvent
  | closeConnection => exact h.closeConnection

/-- A program of a handler does to its slot, in the daemon, what it does to the slot alone. -/
theorem Table.run (h : Table w free) (hp : w.Peer i) (hi : i ∉ free) {α : Type} (p : Code α) :
    Prog.Agree (Linked i w) (Prog.run (World.exec i) p w) (Prog.run Slot.exec p (w.slots i).norm) :=
  (linked_simulates i w).run p ⟨⟨free, h, fun hi' => absurd hi' hi⟩, hp, .refl i w, rfl⟩

end World
end Xdbd
