import Xdbd.Chain
import Xdbd.Link
import Xdbd.Posting

/-!
# The invariant of the connection table

Every slot is on the free list or in use, and a slot in use is a listening connection, an
accepted one, or one that `xdbd_event_accept` gave up half way. The descriptors and the
pools of the slots in use are their own, and the select registry is consistent over their
events.
-/
namespace Xdbd
open Interaction LinkedChain

def Slot.pools (s : Slot) : List ℕ := s.conn.pool.toList ++ s.conn.tempPool.toList

/-- A slot in use, among the open descriptors and the live pools. -/
structure Entry (openFds : Finset ℤ) (livePools : Finset ℕ) (s : Slot) : Prop where
  alive : s.conn.destroyed = false
  readDir : s.read.write = false
  writeDir : s.write.write = true
  writeActive : s.write.active = false
  writeIndex : s.write.index = none
  fd : s.conn.fd = -1 ∨ 0 ≤ s.conn.fd ∧ s.conn.fd ∈ openFds
  pools : ∀ p ∈ s.pools, p ∈ livePools
  nodup : s.pools.Nodup
  idle : s.conn.listening = none →
    s.read.accepted = false ∧ s.read.active = false ∧ s.read.index = none
  listener : s.read.accepted = true → s.read.handler = some .eventAccept ∧ s.read.index ≠ none
  peer : s.read.accepted = false → s.conn.listening ≠ none →
    s.read.active = true ∧ s.conn.unixIo = true ∧ 0 ≤ s.conn.fd ∧ s.conn.pool ≠ none ∧
      s.conn.tempPool ≠ none ∧ ∃ h, s.read.handler = some (.adb h)

lemma Entry.mono {openFds openFds' : Finset ℤ} {livePools livePools' : Finset ℕ} {s : Slot}
    (h : Entry openFds livePools s) (hfds : s.conn.fd ∈ openFds → s.conn.fd ∈ openFds')
    (hpools : ∀ p ∈ s.pools, p ∈ livePools → p ∈ livePools') : Entry openFds' livePools' s :=
  { h with
    fd := h.fd.imp_right fun hf => ⟨hf.1, hfds hf.2⟩
    pools := fun p hp => hpools p hp (h.pools p hp) }

/-- What an entry of the table keeps when its connection goes on. -/
structure Similar (s t : Slot) : Prop where
  conn : t.conn = { s.conn with data := t.conn.data, sent := t.conn.sent,
                                buffer := t.conn.buffer, timeout := t.conn.timeout }
  readWrite : t.read.write = s.read.write
  accepted : t.read.accepted = s.read.accepted
  readActive : t.read.active = s.read.active
  readIndex : t.read.index = none ↔ s.read.index = none
  writeWrite : t.write.write = s.write.write
  writeActive : t.write.active = s.write.active
  writeIndex : t.write.index = none ↔ s.write.index = none
  handler : t.read.handler = s.read.handler ∨
    s.read.accepted = false ∧ ∃ h, t.read.handler = some (.adb h)

lemma Similar.refl (s : Slot) : Similar s s :=
  ⟨rfl, rfl, rfl, rfl, Iff.rfl, rfl, rfl, Iff.rfl, .inl rfl⟩

lemma SameFrame.similar {s t : Slot} (h : SameFrame s t) (hacc : s.read.accepted = false) :
    Similar s t where
  conn := h.conn
  readWrite := by rw [h.read]
  accepted := by rw [h.read]
  readActive := by rw [h.read]
  readIndex := by rw [h.read]
  writeWrite := by rw [h.write]
  writeActive := by rw [h.write]
  writeIndex := by rw [h.write]
  handler := h.handler.imp_right fun he => ⟨hacc, he⟩

/-- Only the positions of the two events in the registry differ. -/
structure SameButIndex (s t : Slot) : Prop where
  conn : t.conn = s.conn
  wire : t.wire = s.wire
  read : t.read.norm = s.read.norm
  write : t.write.norm = s.write.norm

lemma SameButIndex.refl (s : Slot) : SameButIndex s s := ⟨rfl, rfl, rfl, rfl⟩

lemma SameButIndex.trans {s t u : Slot} (h : SameButIndex s t) (h' : SameButIndex t u) :
    SameButIndex s u :=
  ⟨h'.conn.trans h.conn, h'.wire.trans h.wire, h'.read.trans h.read, h'.write.trans h.write⟩

lemma SameButIndex.norm {s t : Slot} (h : SameButIndex s t) : t.norm = s.norm := by
  rw [Slot.norm, Slot.norm, h.conn, h.wire, h.read, h.write]

lemma Event.index_none_congr {e e' : Event} (h : e'.norm = e.norm) :
    e'.index = none ↔ e.index = none := by
  rw [← Event.norm_index_none e', ← Event.norm_index_none e, h]

lemma SameButIndex.similar {s t : Slot} (h : SameButIndex s t) : Similar s t where
  conn := by rw [h.conn]
  readWrite := (congrArg Event.write h.read : t.read.norm.write = s.read.norm.write)
  accepted := (congrArg Event.accepted h.read : t.read.norm.accepted = s.read.norm.accepted)
  readActive := (congrArg Event.active h.read : t.read.norm.active = s.read.norm.active)
  readIndex := Event.index_none_congr h.read
  writeWrite := (congrArg Event.write h.write : t.write.norm.write = s.write.norm.write)
  writeActive := (congrArg Event.active h.write : t.write.norm.active = s.write.norm.active)
  writeIndex := Event.index_none_congr h.write
  handler := .inl (congrArg Event.handler h.read : t.read.norm.handler = s.read.norm.handler)

lemma Entry.similar {openFds : Finset ℤ} {livePools : Finset ℕ} {s t : Slot}
    (h : Entry openFds livePools s) (hs : Similar s t) : Entry openFds livePools t := by
  have hpools : t.pools = s.pools := by rw [Slot.pools, hs.conn]; rfl
  have hfd : t.conn.fd = s.conn.fd := by rw [hs.conn]
  have hls : t.conn.listening = s.conn.listening := by rw [hs.conn]
  refine {
    alive := ?_
    readDir := hs.readWrite.trans h.readDir
    writeDir := hs.writeWrite.trans h.writeDir
    writeActive := hs.writeActive.trans h.writeActive
    writeIndex := hs.writeIndex.mpr h.writeIndex
    fd := by rw [hfd]; exact h.fd
    pools := by rw [hpools]; exact h.pools
    nodup := by rw [hpools]; exact h.nodup
    idle := ?_
    listener := ?_
    peer := ?_ }
  · rw [hs.conn]
    exact h.alive
  · rw [hls, hs.accepted, hs.readActive, hs.readIndex]
    exact h.idle
  · intro hacc
    rw [hs.accepted] at hacc
    obtain ⟨hh, hi⟩ := h.listener hacc
    refine ⟨?_, fun hn => hi (hs.readIndex.mp hn)⟩
    rcases hs.handler with he | ⟨hf, -⟩
    · exact he.trans hh
    · rw [hacc] at hf
      cases hf
  · intro hacc hl
    rw [hs.accepted] at hacc
    rw [hls] at hl
    obtain ⟨ha, hu, hf, hp, hq, hh⟩ := h.peer hacc hl
    refine ⟨hs.readActive.trans ha, ?_, by rw [hfd]; exact hf, ?_, ?_, ?_⟩
    · rw [hs.conn]
      exact hu
    · rw [hs.conn]
      exact hp
    · rw [hs.conn]
      exact hq
    · rcases hs.handler with he | ⟨-, he⟩
      · rw [he]
        exact hh
      · exact he

lemma Entry.unregister {openFds : Finset ℤ} {livePools : Finset ℕ} {s : Slot}
    (h : Entry openFds livePools s) (hacc : s.read.accepted = false) :
    Entry openFds livePools { s with read := { s.read with index := none } } :=
  { h with
    idle := fun hl => ⟨(h.idle hl).1, (h.idle hl).2.1, rfl⟩
    listener := fun ha => absurd (hacc.symm.trans ha) (by simp)
    peer := h.peer }

namespace World

def InUse (w : World) (free : List ℕ) (i : ℕ) : Prop := i ∈ w.issued ∧ i ∉ free

def usedEvents (w : World) (free : List ℕ) : Set Ev := { e | w.InUse free e.slot }

/-- The connection table with the free list `free`. -/
structure Table (w : World) (free : List ℕ) : Prop where
  chain : Chain w.link w.freeConnections free
  nodup : free.Nodup
  inTable : ∀ i, i ∈ free ∨ i ∈ w.issued → i < w.connectionN
  unissued : ∀ i < w.connectionN, i ∉ w.issued → i ∈ free
  count : w.freeConnectionN = free.length
  size : w.connectionN < 2^32
  freeFd : ∀ i ∈ free, (w.slots i).conn.fd = -1
  released : ∀ i ∈ free, i ∈ w.issued → (w.slots i).conn.destroyed = true
  entry : ∀ i, w.InUse free i → Entry w.openFds w.livePools (w.slots i)
  registry : Registry (w.usedEvents free) w
  fds : ∀ i j, w.InUse free i → w.InUse free j →
    (w.slots i).conn.fd = (w.slots j).conn.fd → (w.slots i).conn.fd ≠ -1 → i = j
  pools : ∀ i j, w.InUse free i → w.InUse free j → i ≠ j →
    List.Disjoint (w.slots i).pools (w.slots j).pools
  poolsLt : ∀ p ∈ w.livePools, p < w.nextPool

variable {w w' : World} {free : List ℕ}

/-! ## What follows for the registry -/

lemma Table.registered_inUse (h : Table w free) {e : Ev} (he : e ∈ w.registered) :
    w.InUse free e.slot := h.registry.dense.mem_dom he

lemma Table.registered_iff (h : Table w free) {e : Ev} :
    e ∈ w.registered ↔ w.InUse free e.slot ∧ (w.event e).index ≠ none := by
  constructor
  · intro he
    exact ⟨h.registered_inUse he, (h.registry.mem_iff (h.registered_inUse he)).mp he⟩
  · rintro ⟨hu, hi⟩
    exact (h.registry.mem_iff hu).mpr hi

lemma Table.registered_read (h : Table w free) {e : Ev} (he : e ∈ w.registered) :
    ∃ i, e = .read i := by
  cases e with
  | read i => exact ⟨i, rfl⟩
  | write i =>
    obtain ⟨hu, hi⟩ := h.registered_iff.mp he
    exact absurd (h.entry i hu).writeIndex hi

lemma Table.dirFlags (h : Table w free) : w.DirFlags := by
  intro e he
  obtain ⟨i, rfl⟩ := h.registered_read he
  exact (h.entry i (h.registered_inUse he)).readDir

lemma Table.distinctFds (h : Table w free) : w.DistinctFds := by
  intro e he e' he' _ hfd hpos
  obtain ⟨i, rfl⟩ := h.registered_read he
  obtain ⟨j, rfl⟩ := h.registered_read he'
  have hij := h.fds i j (h.registered_inUse he) (h.registered_inUse he') hfd
    fun hn => absurd (show w.fd (.read i) = -1 from hn) (by omega)
  rw [hij]

/-! ## Steps that move no slot -/

/-- The fields outside the slots that the table depends on. -/
structure SameTables (w w' : World) : Prop where
  connectionN : w'.connectionN = w.connectionN
  freeConnections : w'.freeConnections = w.freeConnections
  freeConnectionN : w'.freeConnectionN = w.freeConnectionN
  issued : w'.issued = w.issued

theorem Table.update (h : Table w free) (hs : SameTables w w')
    (hlink : ∀ i ∈ free, w'.link i = w.link i)
    (hfd : ∀ i, (w'.slots i).conn.fd = (w.slots i).conn.fd)
    (hdest : ∀ i, (w'.slots i).conn.destroyed = (w.slots i).conn.destroyed)
    (hentry : ∀ i, w.InUse free i → Entry w'.openFds w'.livePools (w'.slots i))
    (hreg : Registry (w.usedEvents free) w')
    (hpools : ∀ i j, w.InUse free i → w.InUse free j → i ≠ j →
      List.Disjoint (w'.slots i).pools (w'.slots j).pools)
    (hlt : ∀ p ∈ w'.livePools, p < w'.nextPool) : Table w' free := by
  have huse : ∀ i, w'.InUse free i ↔ w.InUse free i := by
    intro i
    rw [InUse, InUse, hs.issued]
  have hdom : w'.usedEvents free = w.usedEvents free := Set.ext fun e => huse e.slot
  refine {
    chain := ?_
    nodup := h.nodup
    inTable := by rw [hs.connectionN, hs.issued]; exact h.inTable
    unissued := by rw [hs.connectionN, hs.issued]; exact h.unissued
    count := by rw [hs.freeConnectionN]; exact h.count
    size := by rw [hs.connectionN]; exact h.size
    freeFd := fun i hi => (hfd i).trans (h.freeFd i hi)
    released := fun i hi hi' => (hdest i).trans (h.released i hi (hs.issued ▸ hi'))
    entry := fun i hi => hentry i ((huse i).mp hi)
    registry := by rw [hdom]; exact hreg
    fds := fun i j hi hj he hne => ?_
    pools := fun i j hi hj => hpools i j ((huse i).mp hi) ((huse j).mp hj)
    poolsLt := hlt }
  · rw [hs.freeConnections]
    exact h.chain.congr hlink
  · rw [hfd, hfd] at he
    rw [hfd] at hne
    exact h.fds i j ((huse i).mp hi) ((huse j).mp hj) he hne

theorem Table.similar (h : Table w free) (hs : SameTables w w')
    (hlink : ∀ i ∈ free, w'.link i = w.link i) (hsim : ∀ i, Similar (w.slots i) (w'.slots i))
    (hopen : w.openFds ⊆ w'.openFds) (hlive : w'.livePools = w.livePools)
    (hnext : w'.nextPool = w.nextPool) (hreg : Registry (w.usedEvents free) w') :
    Table w' free := by
  have hpools : ∀ i, (w'.slots i).pools = (w.slots i).pools := by
    intro i
    rw [Slot.pools, (hsim i).conn]
    rfl
  refine h.update hs hlink (fun i => by rw [(hsim i).conn]) (fun i => by rw [(hsim i).conn])
    (fun i hi => ?_) hreg (fun i j hi hj hij => ?_) ?_
  · exact ((h.entry i hi).mono (fun hf => hopen hf) fun p _ hp => hlive ▸ hp).similar (hsim i)
  · rw [hpools, hpools]
    exact h.pools i j hi hj hij
  · rw [hlive, hnext]
    exact h.poolsLt

lemma link_congr {w w' : World} {i : ℕ} (h : (w'.slots i).conn.data = (w.slots i).conn.data) :
    w'.link i = w.link i := by
  unfold link
  rw [h]

theorem Table.modSlot (h : Table w free) {i : ℕ} {s : Slot} (hf : SameFrame (w.slots i) s)
    (hacc : (w.slots i).read.accepted = false) (hi : i ∈ w.issued) :
    Table (w.modSlot i fun _ => s) free := by
  have hslots : ∀ j, (w.modSlot i fun _ => s).slots j = if j = i then s else w.slots j :=
    fun j => slots_modSlot i j _
  refine h.similar ⟨rfl, rfl, rfl, rfl⟩ (fun j hj => ?_) (fun j => ?_) (fun _ hs => hs) rfl rfl
    (h.registry.congr (fun e _ => ?_) (fun e _ => ?_) rfl rfl rfl rfl rfl)
  · apply link_congr
    rw [hslots]
    split_ifs with hji
    · subst hji
      exact hf.data (h.released j hj hi)
    · rfl
  · rw [hslots]
    split_ifs with hji
    · subst hji
      exact hf.similar hacc
    · exact Similar.refl _
  · cases e with
    | read j =>
      simp only [event, hslots]
      split_ifs with hji
      · rw [hf.read, hji]
      · rfl
    | write j =>
      simp only [event, hslots]
      split_ifs with hji
      · rw [hf.write, hji]
      · rfl
  · simp only [fd, hslots]
    split_ifs with hji
    · rw [hf.conn, hji]
    · rfl

/-- A slot handed out by `xdbd_event_accept` to a connection that was set up. -/
structure Peer (w : World) (i : ℕ) : Prop where
  issued : i ∈ w.issued
  accepted : (w.slots i).read.accepted = false
  listening : (w.slots i).conn.listening ≠ none

lemma Registry.norm_removed {dom : Set Ev} (h : Registry dom w) (ev e : Ev) {k : ℕ}
    (hev : ev ∈ dom) (hk : (w.event ev).index = some k) (d : Dir) (he : e ≠ ev) :
    ((w.removed ev k d).event e).norm = (w.event e).norm := by
  obtain ⟨hkn, -⟩ := h.dense.found ev hev k hk
  rw [event_removed, if_neg he]
  split_ifs with hl
  · have hs := (h.dense.stored (w.nevents - 1) (by omega)).2
    rw [← hl.2] at hs
    simp [Event.norm, hs]
  · rfl

lemma Table.sameButIndex_removed (h : Table w free) {i j k : ℕ} (hi : w.InUse free i)
    (hk : (w.slots i).read.index = some k) (hj : j ≠ i) :
    SameButIndex (w.slots j) ((w.removed (.read i) k .read).slots j) where
  conn := conn_removed _ _ _ _
  wire := wire_removed _ _ _ _
  read := h.registry.norm_removed (.read i) (.read j) hi hk .read (by simpa using hj)
  write := h.registry.norm_removed (.read i) (.write j) hi hk .read (by simp)

lemma Table.unregister_removed (h : Table w free) {i k : ℕ} (hi : w.InUse free i)
    (hk : (w.slots i).read.index = some k) :
    SameButIndex { w.slots i with read := { (w.slots i).read with index := none } }
      ((w.removed (.read i) k .read).slots i) where
  conn := conn_removed _ _ _ _
  wire := wire_removed _ _ _ _
  read := by
    have hr := @event_removed w (.read i) k .read (.read i)
    rw [if_pos rfl] at hr
    exact congrArg Event.norm hr
  write := h.registry.norm_removed (.read i) (.write i) hi hk .read (by simp)

lemma Table.peer_entry (h : Table w free) {i : ℕ} (hp : w.Peer i) (hi : i ∉ free) :
    (w.slots i).read.active = true ∧ (w.slots i).conn.unixIo = true ∧
      0 ≤ (w.slots i).conn.fd ∧ (w.slots i).conn.pool ≠ none ∧
      (w.slots i).conn.tempPool ≠ none ∧ ∃ h, (w.slots i).read.handler = some (.adb h) :=
  (h.entry i ⟨hp.issued, hi⟩).peer hp.accepted hp.listening

lemma Table.registry_removed (h : Table w free) {i k : ℕ} (hp : w.Peer i) (hi : i ∉ free)
    (hk : (w.slots i).read.index = some k) :
    Registry (w.usedEvents free) (w.removed (.read i) k .read) := by
  have hu : w.InUse free i := ⟨hp.issued, hi⟩
  have hmem : Ev.read i ∈ w.registered := h.registered_iff.mpr ⟨hu, by simp [event, hk]⟩
  refine h.registry.removed hu hk fun e he hd hfd => ?_
  refine h.distinctFds e he _ hmem hd hfd ?_
  rw [hfd]
  exact (h.peer_entry hp hi).2.2.1

/-- The read event of an accepted connection is taken out of the registry. -/
theorem Table.removed (h : Table w free) {i k : ℕ} (hp : w.Peer i) (hi : i ∉ free)
    (hk : (w.slots i).read.index = some k) : Table (w.removed (.read i) k .read) free := by
  have hu : w.InUse free i := ⟨hp.issued, hi⟩
  refine h.update ⟨rfl, rfl, rfl, rfl⟩ (fun j _ => link_congr ?_) (fun j => ?_) (fun j => ?_)
    (fun j hj => ?_) (h.registry_removed hp hi hk) (fun j l hj hl hjl => ?_) h.poolsLt
  · rw [conn_removed]
  · rw [conn_removed]
  · rw [conn_removed]
  · by_cases hji : j = i
    · subst hji
      exact ((h.entry j hu).unregister hp.accepted).similar (h.unregister_removed hu hk).similar
    · exact (h.entry j hj).similar (h.sameButIndex_removed hu hk hji).similar
  · simp only [Slot.pools, conn_removed]
    exact h.pools j l hj hl hjl

end World
end Xdbd
