import Xdbd.EventLoop
import Xdbd.Refinement

/-!
# Taking a slot from the free list

`xdbd_get_connection` and what `xdbd_event_accept` and start-up do with the slot: each step
keeps the connection table, and no slot but the new one and the listening one changes.
-/
namespace Xdbd
open LinkedChain

def freshSlot (s : ℤ) : Slot :=
  ⟨Connection.zero s, Event.zero, { Event.zero with write := true }, Wire.fresh⟩

lemma Entry.withPools {fds : Finset ℤ} {live live' : Finset ℕ} {s : Slot}
    {f : Connection → Connection} (h : Entry fds live s) (hidle : s.conn.listening = none)
    (hf : ∀ c, f c = { c with pool := (f c).pool, tempPool := (f c).tempPool })
    (hlive : ∀ p ∈ ({ s with conn := f s.conn } : Slot).pools, p ∈ live')
    (hnodup : ({ s with conn := f s.conn } : Slot).pools.Nodup) :
    Entry fds live' { s with conn := f s.conn } := by
  obtain ⟨hacc, hact, hidx⟩ := h.idle hidle
  have hc := hf s.conn
  exact {
    alive := by rw [hc]; exact h.alive
    readDir := h.readDir
    writeDir := h.writeDir
    writeActive := h.writeActive
    writeIndex := h.writeIndex
    fd := by rw [hc]; exact h.fd
    pools := hlive
    nodup := hnodup
    idle := fun _ => ⟨hacc, hact, hidx⟩
    listener := fun ha => absurd (hacc.symm.trans ha) (by simp)
    peer := fun _ hl => absurd (by rw [hc]; exact hidle) hl }

namespace World
variable {w w' : World} {free : List ℕ}

/-- The world after the slot `i`, whose link is `next`, was handed out for `s`. -/
def handOut (w : World) (i : ℕ) (next : Option ℕ) (s : ℤ) : World :=
  { w with
    freeConnections := next
    freeConnectionN := (w.freeConnectionN + (2^32 - 1)) % 2^32
    slots := Function.update w.slots i (freshSlot s)
    issued := insert i w.issued }

lemma slots_handOut {i : ℕ} {next : Option ℕ} {s : ℤ} (j : ℕ) :
    (w.handOut i next s).slots j = if j = i then freshSlot s else w.slots j := by
  simp only [handOut, Function.update_apply]

lemma handOut_self {i : ℕ} {next : Option ℕ} {s : ℤ} :
    (w.handOut i next s).slots i = freshSlot s := by rw [slots_handOut, if_pos rfl]

lemma handOut_of_ne {i j : ℕ} {next : Option ℕ} {s : ℤ} (hj : j ≠ i) :
    (w.handOut i next s).slots j = w.slots j := by rw [slots_handOut, if_neg hj]

lemma event_handOut {i : ℕ} {next : Option ℕ} {s : ℤ} {e : Ev} (he : e.slot ≠ i) :
    (w.handOut i next s).event e = w.event e := by
  have hs := @slots_handOut w i next s e.slot
  rw [if_neg he] at hs
  cases e <;> simp only [event, Ev.slot] at hs ⊢ <;> rw [hs]

lemma Table.getConnection_nil (h : Table w []) (s : ℤ) :
    w.getConnection s = .ok (none, w) := by
  unfold getConnection
  rw [show w.freeConnections = none from h.chain]

lemma Table.getConnection_cons {i : ℕ} (h : Table w (i :: free)) (s : ℤ) :
    ∃ next, w.getConnection s = .ok (some i, w.handOut i next s) ∧ Chain w.link next free := by
  obtain ⟨hhead, next, hnext, hchain⟩ := h.chain
  refine ⟨next, ?_, hchain⟩
  unfold getConnection
  simp only [hhead, hnext]
  rfl

lemma Registry.grow {dom dom' : Set Ev} (h : Registry dom w) (hsub : ∀ e ∈ dom, e ∈ dom')
    (hnew : ∀ e ∈ dom', e ∉ dom → (w.event e).index = none) : Registry dom' w :=
  ⟨h.dense.change_dom (fun k hk => hsub _ (h.dense.stored k hk).1) hnew, h.masterRead,
    h.masterWrite, h.maxFd⟩

lemma inUse_handOut {i j : ℕ} {next : Option ℕ} {s : ℤ} (hi : i ∉ free) :
    (w.handOut i next s).InUse free j ↔ j = i ∨ w.InUse (i :: free) j := by
  simp only [InUse, World.handOut, Finset.mem_insert, List.mem_cons, not_or]
  constructor
  · rintro ⟨rfl | hj, hf⟩
    · exact .inl rfl
    · by_cases hji : j = i
      · exact .inl hji
      · exact .inr ⟨hj, hji, hf⟩
  · rintro (rfl | ⟨hj, -, hf⟩)
    · exact ⟨.inl rfl, hi⟩
    · exact ⟨.inr hj, hf⟩

lemma InUse.ne_head {i j : ℕ} (hj : w.InUse (i :: free) j) : j ≠ i := fun he =>
  hj.2 (by simp [he])

lemma Table.registry_handOut {i : ℕ} {next : Option ℕ} {s : ℤ} (h : Table w (i :: free)) :
    Registry ((w.handOut i next s).usedEvents free) (w.handOut i next s) := by
  obtain ⟨hi, -⟩ := List.nodup_cons.mp h.nodup
  have hkeep : Registry (w.usedEvents (i :: free)) (w.handOut i next s) := by
    refine h.registry.congr (fun e he => ?_) (fun e he => ?_) rfl rfl rfl rfl rfl
    · rw [event_handOut (InUse.ne_head he)]
    · simp only [fd]
      rw [handOut_of_ne (h.registered_inUse he).ne_head]
  refine hkeep.grow (fun e he => (inUse_handOut hi).mpr (.inr he)) fun e he hout => ?_
  have hslot : e.slot = i := ((inUse_handOut hi).mp he).resolve_right hout
  cases e <;> simp only [event, Ev.slot] at hslot ⊢ <;> rw [hslot, handOut_self] <;> rfl

lemma Table.fds_handOut {i : ℕ} {next : Option ℕ} {s : ℤ} (h : Table w (i :: free))
    (hown : s ≠ -1 → ∀ j, w.InUse (i :: free) j → (w.slots j).conn.fd ≠ s) (j k : ℕ)
    (hj : (w.handOut i next s).InUse free j) (hk : (w.handOut i next s).InUse free k)
    (hfd : ((w.handOut i next s).slots j).conn.fd = ((w.handOut i next s).slots k).conn.fd)
    (hneg : ((w.handOut i next s).slots j).conn.fd ≠ -1) : j = k := by
  obtain ⟨hi, -⟩ := List.nodup_cons.mp h.nodup
  rcases (inUse_handOut hi).mp hj with hj | hj <;> rcases (inUse_handOut hi).mp hk with hk | hk
  · rw [hj, hk]
  · rw [hj, handOut_self] at hfd hneg
    rw [handOut_of_ne hk.ne_head] at hfd
    exact absurd hfd.symm (hown hneg k hk)
  · rw [hk, handOut_self, handOut_of_ne hj.ne_head] at hfd
    rw [handOut_of_ne hj.ne_head] at hneg
    exact absurd hfd (hown (fun hc => hneg (hfd.trans hc)) j hj)
  · rw [handOut_of_ne hj.ne_head] at hfd hneg
    rw [handOut_of_ne hk.ne_head] at hfd
    exact h.fds j k hj hk hfd hneg

lemma Table.pools_handOut {i : ℕ} {next : Option ℕ} {s : ℤ} (h : Table w (i :: free)) (j k : ℕ)
    (hj : (w.handOut i next s).InUse free j) (hk : (w.handOut i next s).InUse free k)
    (hjk : j ≠ k) :
    List.Disjoint ((w.handOut i next s).slots j).pools ((w.handOut i next s).slots k).pools := by
  obtain ⟨hi, -⟩ := List.nodup_cons.mp h.nodup
  have hnone : ((w.handOut i next s).slots i).pools = [] := by
    rw [handOut_self]
    rfl
  rcases (inUse_handOut hi).mp hj with hj | hj
  · rw [hj, hnone]
    exact List.disjoint_nil_left _
  rcases (inUse_handOut hi).mp hk with hk | hk
  · rw [hk, hnone]
    exact List.disjoint_nil_right _
  · rw [handOut_of_ne hj.ne_head, handOut_of_ne hk.ne_head]
    exact h.pools j k hj hk hjk

theorem Table.handOut {i : ℕ} {next : Option ℕ} {s : ℤ} (h : Table w (i :: free))
    (hchain : Chain w.link next free) (hs : s = -1 ∨ 0 ≤ s ∧ s ∈ w.openFds)
    (hown : s ≠ -1 → ∀ j, w.InUse (i :: free) j → (w.slots j).conn.fd ≠ s) :
    Table (w.handOut i next s) free := by
  obtain ⟨hi, hnodup⟩ := List.nodup_cons.mp h.nodup
  have hlen : (i :: free).length ≤ w.connectionN :=
    length_le_of_nodup h.nodup fun j hj => h.inTable j (.inl hj)
  have hfree : ∀ j ∈ free, j ≠ i := fun j hj hji => hi (hji ▸ hj)
  refine {
    chain := hchain.congr fun j hj => link_congr (by rw [handOut_of_ne (hfree j hj)])
    nodup := hnodup
    inTable := ?_
    unissued := ?_
    count := ?_
    size := h.size
    freeFd := fun j hj => by
      rw [handOut_of_ne (hfree j hj)]
      exact h.freeFd j (List.mem_cons_of_mem _ hj)
    released := ?_
    entry := ?_
    registry := h.registry_handOut
    fds := h.fds_handOut hown
    pools := h.pools_handOut
    poolsLt := h.poolsLt }
  · intro j hj
    rcases hj with hj | hj
    · exact h.inTable j (.inl (List.mem_cons_of_mem _ hj))
    · rcases Finset.mem_insert.mp hj with rfl | hj
      · exact h.inTable j (.inl (by simp))
      · exact h.inTable j (.inr hj)
  · intro j hj hni
    obtain ⟨hji, hni⟩ := not_or.mp (fun hc => hni (Finset.mem_insert.mpr hc))
    exact (List.mem_cons.mp (h.unissued j hj hni)).resolve_left hji
  · show (w.freeConnectionN + (2^32 - 1)) % 2^32 = free.length
    have hsize := h.size
    rw [List.length_cons] at hlen
    rw [h.count, List.length_cons]
    omega
  · intro j hj hjs
    rw [handOut_of_ne (hfree j hj)]
    refine h.released j (List.mem_cons_of_mem _ hj) ?_
    exact (Finset.mem_insert.mp hjs).resolve_left (hfree j hj)
  · intro j hj
    rcases (inUse_handOut hi).mp hj with rfl | hj
    · rw [handOut_self]
      exact ⟨rfl, rfl, rfl, rfl, rfl, hs, by simp [freshSlot, Slot.pools, Connection.zero],
        by simp [freshSlot, Slot.pools, Connection.zero], fun _ => ⟨rfl, rfl, rfl⟩,
        fun ha => absurd ha Bool.false_ne_true, fun _ hl => absurd rfl hl⟩
    · rw [handOut_of_ne hj.ne_head]
      exact h.entry j hj

theorem Table.growPools {i : ℕ} {f : Connection → Connection} (h : Table w free)
    (hi : w.InUse free i) (hidle : (w.slots i).conn.listening = none)
    (hf : ∀ c, f c = { c with pool := (f c).pool, tempPool := (f c).tempPool })
    (hnew : ∀ p ∈ ({ w.slots i with conn := f (w.slots i).conn } : Slot).pools,
      p ∈ (w.slots i).pools ∨ p = w.nextPool)
    (hnodup : ({ w.slots i with conn := f (w.slots i).conn } : Slot).pools.Nodup) :
    Table { w.modConn i f with
      livePools := insert w.nextPool w.livePools, nextPool := w.nextPool + 1 } free := by
  have hslots : ∀ j, (w.modConn i f).slots j =
      if j = i then { w.slots i with conn := f (w.slots i).conn } else w.slots j := fun j =>
    slots_modSlot i j fun s => { s with conn := f s.conn }
  have hconn : ∀ j, ((w.modConn i f).slots j).conn =
      { (w.slots j).conn with
        pool := ((w.modConn i f).slots j).conn.pool
        tempPool := ((w.modConn i f).slots j).conn.tempPool } := by
    intro j
    rw [hslots]
    split_ifs with hj
    · subst hj
      exact hf _
    · rfl
  -- a live pool of another slot is not the new one
  have hother : ∀ j, w.InUse free j → w.nextPool ∉ (w.slots j).pools := fun j hj hp =>
    absurd (h.poolsLt _ ((h.entry j hj).pools _ hp)) (Nat.lt_irrefl _)
  refine h.update ⟨rfl, rfl, rfl, rfl⟩ (fun j _ => link_congr ?_) (fun j => ?_) (fun j => ?_)
    (fun j hj => ?_) ?_ (fun j k hj hk hjk => ?_) fun p hp => ?_
  · exact (congrArg Connection.data (hconn j) :)
  · exact (congrArg Connection.fd (hconn j) :)
  · exact (congrArg Connection.destroyed (hconn j) :)
  · show Entry w.openFds (insert w.nextPool w.livePools) ((w.modConn i f).slots j)
    rw [hslots]
    split_ifs with hji
    · subst hji
      refine (h.entry j hj).withPools hidle hf (fun p hp => ?_) hnodup
      rcases hnew p hp with hp | rfl
      · exact Finset.mem_insert_of_mem ((h.entry j hj).pools p hp)
      · exact Finset.mem_insert_self _ _
    · exact (h.entry j hj).mono (fun hs => hs) fun p _ hp => Finset.mem_insert_of_mem hp
  · refine h.registry.congr (fun e _ => ?_) (fun e _ => ?_) rfl rfl rfl rfl rfl
    · exact (congrArg Event.index ((event_congr rfl e).trans (event_modConn i f e)) :)
    · exact (congrArg Connection.fd (hconn e.slot) :)
  · show List.Disjoint ((w.modConn i f).slots j).pools ((w.modConn i f).slots k).pools
    rw [hslots, hslots]
    split_ifs with hji hki hki
    · exact absurd (hji.trans hki.symm) hjk
    · subst hji
      intro p hp hp'
      rcases hnew p hp with hp | rfl
      · exact h.pools j k hj hk hjk hp hp'
      · exact hother k hk hp'
    · subst hki
      intro p hp hp'
      rcases hnew p hp' with hp' | rfl
      · exact h.pools j k hj hk hjk hp hp'
      · exact hother j hj hp
    · exact h.pools j k hj hk hjk
  · rcases Finset.mem_insert.mp hp with rfl | hp
    · exact Nat.lt_succ_self _
    · exact Nat.lt_succ_of_lt (h.poolsLt p hp)

lemma slots_entered_read (i : ℕ) (d : Dir) (j : ℕ) :
    (w.entered (.read i) d).slots j =
      if j = i then { w.slots i with read := enter w.nevents (w.slots i).read } else w.slots j :=
  @slots_modSlot w i j fun s => { s with read := enter w.nevents s.read }

/-- A slot becomes a listening or an accepted connection: it is filled in and its read event is
entered into the registry. -/
theorem Table.establish {i : ℕ} {f : Slot → Slot} (h : Table w free) (hi : w.InUse free i)
    (hidle : (w.slots i).conn.listening = none)
    (hf : (f (w.slots i)).conn = { (w.slots i).conn with
      listening := (f (w.slots i)).conn.listening, unixIo := (f (w.slots i)).conn.unixIo })
    (hread : (f (w.slots i)).read.index = none) (hwrite : (f (w.slots i)).write.index = none)
    (hentry : Entry w.openFds w.livePools
      { f (w.slots i) with read := enter w.nevents (f (w.slots i)).read }) :
    Table ((w.modSlot i f).entered (.read i) .read) free := by
  obtain ⟨-, -, hidx⟩ := (h.entry i hi).idle hidle
  have hslots : ∀ j, (w.modSlot i f).slots j = if j = i then f (w.slots i) else w.slots j :=
    fun j => slots_modSlot i j f
  have hconn : ∀ j, ((w.modSlot i f).slots j).conn =
      { (w.slots j).conn with
        listening := ((w.modSlot i f).slots j).conn.listening
        unixIo := ((w.modSlot i f).slots j).conn.unixIo } := by
    intro j
    rw [hslots]
    split_ifs with hj
    · subst hj
      exact hf
    · rfl
  have hindex : ∀ e, ((w.modSlot i f).event e).index = (w.event e).index := by
    intro e
    cases e with
    | read j =>
      simp only [event, hslots]
      split_ifs with hj
      · rw [hread, hj, hidx]
      · rfl
    | write j =>
      simp only [event, hslots]
      split_ifs with hj
      · rw [hwrite, hj, (h.entry i hi).writeIndex]
      · rfl
  have hreg : Registry (w.usedEvents free) (w.modSlot i f) :=
    h.registry.congr (fun e _ => hindex e) (fun e _ => (congrArg Connection.fd (hconn e.slot) :))
      rfl rfl rfl rfl rfl
  have hfinal : ∀ j, ((w.modSlot i f).entered (.read i) .read).slots j =
      if j = i then { f (w.slots i) with read := enter w.nevents (f (w.slots i)).read }
      else w.slots j := by
    intro j
    rw [slots_entered_read, hslots, hslots, if_pos rfl]
    by_cases hj : j = i
    · rw [if_pos hj, if_pos hj]
      rfl
    · rw [if_neg hj, if_neg hj, if_neg hj]
  refine h.update ⟨rfl, rfl, rfl, rfl⟩ (fun j _ => link_congr ?_) (fun j => ?_) (fun j => ?_)
    (fun j hj => ?_) (hreg.entered hi ((hindex _).trans hidx)) (fun j k hj hk hjk => ?_) h.poolsLt
  · rw [conn_entered]
    exact (congrArg Connection.data (hconn j) :)
  · rw [conn_entered]
    exact (congrArg Connection.fd (hconn j) :)
  · rw [conn_entered]
    exact (congrArg Connection.destroyed (hconn j) :)
  · rw [hfinal]
    split_ifs with hji
    · exact hentry
    · exact h.entry j hj
  · have hpools : ∀ j, (((w.modSlot i f).entered (.read i) .read).slots j).pools =
        (w.slots j).pools := by
      intro j
      rw [Slot.pools, conn_entered, hconn]
      rfl
    rw [hpools, hpools]
    exact h.pools j k hj hk hjk

/-! ## Accepting -/

lemma modConn_self {i : ℕ} {f : Connection → Connection}
    (hf : f (w.slots i).conn = (w.slots i).conn) : w.modConn i f = w := by
  unfold modConn modSlot
  simp only [hf]
  rw [show ({ w.slots i with conn := (w.slots i).conn } : Slot) = w.slots i from rfl,
    Function.update_eq_self]

def acceptedSlot (s : ℤ) (ls p q k : ℕ) : Slot where
  conn := { Connection.zero s with
    pool := some p, tempPool := some q, listening := some ls, unixIo := true }
  read := { Event.zero with
    handler := some (.adb .adbWaitApacketHandler), active := true, index := some k }
  write := { Event.zero with
    handler := some (.adb .adbEmptyHandler), write := true, ready := true }
  wire := Wire.fresh

/-- What `xdbd_event_accept` changes while it sets the slot `i` up for the answer `a`. -/
structure SetUp (i : ℕ) (a : AcceptResult) (w w' : World) : Prop where
  others : ∀ j ≠ i, w'.slots j = w.slots j
  slot : (w'.slots i).conn.listening = none ∧ (w'.slots i).read = (w.slots i).read ∧
      (w'.slots i).write = (w.slots i).write ∨
    a.pool = true ∧ a.tempPool = true ∧
      ∃ ls p q k, w'.slots i = acceptedSlot (w.slots i).conn.fd ls p q k
  connectionN : w'.connectionN = w.connectionN
  issued : w'.issued = w.issued
  listening : w'.listening = w.listening
  postedAcceptEvents : w'.postedAcceptEvents = w.postedAcceptEvents
  postedEvents : w'.postedEvents = w.postedEvents
  boundFds : w'.boundFds = w.boundFds
  fdArgs : ∀ s ∈ w'.fdArgs, s ∈ w.fdArgs ∨
    a.pool = true ∧ a.tempPool = true ∧ s = (w.slots i).conn.fd
  livePools : ∀ p < w.nextPool, p ∈ w'.livePools ↔ p ∈ w.livePools
  nextPool : w.nextPool ≤ w'.nextPool

lemma handleReadEvent_enter {ev : Ev} (hi : (w.event ev).index = none)
    (ha : (w.event ev).active = false) (hr : (w.event ev).ready = false) :
    w.handleReadEvent ev false = (.ok, w.entered ev .read) := by
  have hready : ((w.entered ev .read).event ev).ready = false := by
    rw [event_entered, if_pos rfl]
    exact hr
  unfold World.handleReadEvent
  rw [if_pos ⟨ha, hr⟩, selectAddEvent_eq .read hi]
  simp only [hready]
  rw [if_neg (by simp)]

/-- The set-up of a slot by its two pools, and by the rest of `xdbd_event_accept`. -/
def withPool (w : World) (i : ℕ) : World :=
  { w.modConn i fun c => { c with pool := some w.nextPool } with
    livePools := insert w.nextPool w.livePools, nextPool := w.nextPool + 1 }

def withTempPool (w : World) (i : ℕ) : World :=
  { w.modConn i fun c => { c with tempPool := some w.nextPool } with
    livePools := insert w.nextPool w.livePools, nextPool := w.nextPool + 1 }

/-- The remaining fields of an accepted connection. -/
def fill (ls : ℕ) (s : Slot) : Slot :=
  { s with
    conn := { s.conn with listening := some ls, unixIo := true }
    read := { s.read with handler := some (.adb .adbWaitApacketHandler) }
    write := { s.write with ready := true, handler := some (.adb .adbEmptyHandler) } }

def established (w : World) (i ls : ℕ) : World :=
  (((w.withPool i).withTempPool i).modSlot i (fill ls)).entered (.read i) .read

/-- The set-up of a fresh slot. Without a pool it is left as it is; the two other failures end at
the `c->listening` that is not set yet. -/
lemma setUpAccepted_eq {i : ℕ} {s : ℤ} (hslot : w.slots i = freshSlot s) (ls : ℕ)
    (a : AcceptResult) :
    w.setUpAccepted i ls a =
      if a.pool = false then .ok w
      else if a.tempPool = false then .ok (w.withPool i)
      else if a.sockaddr = false then .error .nullDeref
      else if a.nonblocking = false then .error .nullDeref
      else .ok (w.established i ls) := by
  have hpool : (w.withPool i).slots i =
      { freshSlot s with conn := { Connection.zero s with pool := some w.nextPool } } := by
    show ((w.modConn i fun c => { c with pool := some w.nextPool }).slots i) = _
    rw [modConn, slots_modSlot, if_pos rfl, hslot]
    rfl
  have htemp : ((w.withPool i).withTempPool i).slots i =
      { freshSlot s with conn := { Connection.zero s with
          pool := some w.nextPool, tempPool := some (w.withPool i).nextPool } } := by
    show (((w.withPool i).modConn i fun c =>
      { c with tempPool := some (w.withPool i).nextPool }).slots i) = _
    rw [modConn, slots_modSlot, if_pos rfl, hpool]
  unfold World.setUpAccepted
  cases hp : a.pool with
  | false =>
    have hself : (w.modConn i fun c => { c with pool := none }) = w :=
      modConn_self (by rw [hslot]; rfl)
    simp only [createPool, Bool.false_eq_true, if_false, if_true, hself]
  | true =>
    have hself : ((w.withPool i).modConn i fun c => { c with tempPool := none }) = w.withPool i :=
      modConn_self (by rw [hpool]; rfl)
    cases hq : a.tempPool with
    | false =>
      change Except.ok ((w.withPool i).modConn i fun c => { c with tempPool := none }) = _
      rw [hself]
      rfl
    | true =>
      set u := (w.withPool i).withTempPool i
      have hls : (u.slots i).conn.listening = none := by rw [htemp]; rfl
      have hclose : u.closeAcceptedConnection i = .error .nullDeref := by
        unfold closeAcceptedConnection
        rw [hls]
      have hfill : (((u.modConn i fun c => { c with listening := some ls, unixIo := true }).modEvent
          (.write i) fun e => { e with ready := true }).modEvent (.read i) fun e =>
            { e with handler := some (.adb .adbWaitApacketHandler) }).modEvent (.write i) (fun e =>
            { e with handler := some (.adb .adbEmptyHandler) }) = u.modSlot i (fill ls) := by
        simp only [modConn, modEvent, Ev.slot, modSlot_modSlot]
        rfl
      have hread : (u.modSlot i (fill ls)).event (.read i) =
          { Event.zero with handler := some (.adb .adbWaitApacketHandler) } := by
        show ((u.modSlot i (fill ls)).slots i).read = _
        rw [slots_modSlot, if_pos rfl, htemp]
        rfl
      have hinit : ((u.modConn i fun c => { c with listening := some ls, unixIo := true }).modEvent
          (.write i) fun e => { e with ready := true }).adbInitConnection i =
            .ok (w.established i ls) := by
        unfold adbInitConnection
        simp only [hfill]
        rw [handleReadEvent_enter (by rw [hread]; rfl) (by rw [hread]; rfl) (by rw [hread]; rfl)]
        rfl
      change (if a.sockaddr = false then u.closeAcceptedConnection i
        else if a.nonblocking = false then u.closeAcceptedConnection i
        else ((u.modConn i fun c => { c with listening := some ls, unixIo := true }).modEvent
          (.write i) fun e => { e with ready := true }).adbInitConnection i) = _
      rw [hclose, hinit]
      rfl

lemma setUpAccepted_cases {i : ℕ} {s : ℤ} (hslot : w.slots i = freshSlot s) (ls : ℕ)
    (a : AcceptResult) (hok : w.setUpAccepted i ls a = .ok w') :
    w' = w ∨ w' = w.withPool i ∨ a.pool = true ∧ a.tempPool = true ∧ w' = w.established i ls := by
  rw [setUpAccepted_eq hslot] at hok
  split_ifs at hok with hp hq
  · exact .inl (Except.ok.inj hok).symm
  · exact .inr (.inl (Except.ok.inj hok).symm)
  · exact .inr (.inr ⟨by simpa using hp, by simpa using hq, (Except.ok.inj hok).symm⟩)

lemma slots_withPool (i j : ℕ) :
    (w.withPool i).slots j = if j = i then
      { w.slots i with conn := { (w.slots i).conn with pool := some w.nextPool } }
      else w.slots j :=
  @slots_modSlot w i j fun s => { s with conn := { s.conn with pool := some w.nextPool } }

lemma slots_withTempPool (i j : ℕ) :
    (w.withTempPool i).slots j = if j = i then
      { w.slots i with conn := { (w.slots i).conn with tempPool := some w.nextPool } }
      else w.slots j :=
  @slots_modSlot w i j fun s => { s with conn := { s.conn with tempPool := some w.nextPool } }

lemma slots_established {i ls : ℕ} {s : ℤ} (hslot : w.slots i = freshSlot s) (j : ℕ) :
    (w.established i ls).slots j =
      if j = i then acceptedSlot s ls w.nextPool (w.withPool i).nextPool w.nevents
      else w.slots j := by
  have htemp : ((w.withPool i).withTempPool i).slots i =
      { freshSlot s with conn := { Connection.zero s with
          pool := some w.nextPool, tempPool := some (w.withPool i).nextPool } } := by
    rw [slots_withTempPool, if_pos rfl, slots_withPool, if_pos rfl, hslot]
    rfl
  rw [established, slots_entered_read, slots_modSlot, slots_modSlot, if_pos rfl]
  by_cases hj : j = i
  · rw [if_pos hj, if_pos hj, htemp]
    rfl
  · rw [if_neg hj, if_neg hj, if_neg hj, slots_withTempPool, if_neg hj, slots_withPool, if_neg hj]

theorem Table.setUpAccepted {i ls : ℕ} {s : ℤ} {a : AcceptResult} (h : Table w free)
    (hi : w.InUse free i) (hslot : w.slots i = freshSlot s) (hs : 0 ≤ s)
    (hok : w.setUpAccepted i ls a = .ok w') : Table w' free ∧ SetUp i a w w' := by
  have hself : (w.withPool i).slots i =
      { freshSlot s with conn := { Connection.zero s with pool := some w.nextPool } } := by
    rw [slots_withPool, if_pos rfl, hslot]
    rfl
  have hpool : Table (w.withPool i) free := by
    refine h.growPools hi (by rw [hslot]; rfl) (fun c => rfl) (fun p hp => ?_) ?_
    · rw [hslot] at hp
      simpa [Slot.pools, freshSlot, Connection.zero] using Or.inr hp
    · rw [hslot]
      simp [Slot.pools, freshSlot, Connection.zero]
  rcases setUpAccepted_cases hslot ls a hok with rfl | rfl | ⟨hp, hq, rfl⟩
  · refine ⟨h, fun _ _ => rfl, .inl ⟨by rw [hslot]; rfl, rfl, rfl⟩, rfl, rfl, rfl, rfl, rfl, rfl,
      fun _ hs => .inl hs, fun _ _ => Iff.rfl, le_rfl⟩
  · refine ⟨hpool, fun j hj => by rw [slots_withPool, if_neg hj], .inl ⟨?_, ?_, ?_⟩, rfl, rfl, rfl,
      rfl, rfl, rfl, fun _ hs => .inl hs, fun p hp => ?_, Nat.le_succ _⟩
    · rw [hself]
      rfl
    · rw [hself, hslot]
    · rw [hself, hslot]
    · exact Finset.mem_insert.trans (or_iff_right (Nat.ne_of_lt hp))
  · have htemp : ((w.withPool i).withTempPool i).slots i =
        { freshSlot s with conn := { Connection.zero s with
            pool := some w.nextPool, tempPool := some (w.withPool i).nextPool } } := by
      rw [slots_withTempPool, if_pos rfl, hself]
    have hboth : Table ((w.withPool i).withTempPool i) free := by
      refine hpool.growPools hi (by rw [hself]; rfl) (fun c => rfl) (fun p hp => ?_) ?_
      · rw [hself] at hp ⊢
        simpa [Slot.pools, freshSlot, Connection.zero] using hp
      · rw [hself]
        simp [Slot.pools, withPool]
    have hentry := hboth.entry i hi
    have hfinal : Table _ free := @Table.establish _ _ i (fill ls) hboth hi (by rw [htemp]; rfl) rfl
      (by rw [htemp]; rfl) (by rw [htemp]; rfl) {
        alive := hentry.alive
        readDir := hentry.readDir
        writeDir := hentry.writeDir
        writeActive := hentry.writeActive
        writeIndex := hentry.writeIndex
        fd := hentry.fd
        pools := hentry.pools
        nodup := hentry.nodup
        idle := fun hl => by cases hl
        listener := fun ha => by
          rw [htemp] at ha
          cases ha
        peer := fun _ _ => ⟨rfl, rfl, by rw [htemp]; exact hs, by rw [htemp]; simp [fill],
          by rw [htemp]; simp [fill], _, rfl⟩ }
    have hslots := @slots_established w i ls s hslot
    have hfd : (w.slots i).conn.fd = s := by rw [hslot]; rfl
    refine ⟨hfinal, fun j hj => by rw [hslots, if_neg hj], .inr
      ⟨hp, hq, ls, w.nextPool, (w.withPool i).nextPool, w.nevents, ?_⟩, rfl, rfl, rfl,
      rfl, rfl, rfl, fun t ht => ?_, fun p hp => ?_, by show _ ≤ _ + 1 + 1; omega⟩
    · rw [hslots, if_pos rfl, hfd]
    · rcases Finset.mem_insert.mp ht with rfl | ht
      · refine .inr ⟨hp, hq, ?_⟩
        show ((((w.withPool i).withTempPool i).modSlot i (fill ls)).slots i).conn.fd = _
        rw [slots_modSlot, if_pos rfl, htemp, hfd]
        rfl
      · exact .inl ht
    · have hp' : p < w.nextPool + 1 := Nat.lt_succ_of_lt hp
      exact (Finset.mem_insert.trans (or_iff_right (Nat.ne_of_lt hp'))).trans
        (Finset.mem_insert.trans (or_iff_right (Nat.ne_of_lt hp)))

/-- The answer `a` to the listening slot `l` has led to a connection. -/
structure Established (w : World) (l : ℕ) (a : AcceptResult) : Prop where
  noted : Obs.accept a true ∈ (w.slots l).wire.history
  pool : a.pool = true
  tempPool : a.tempPool = true
  fd : 0 ≤ a.fd

/-- What a call of `xdbd_event_accept` on the listening slot `l` changes. -/
structure Accepting (l : ℕ) (free free' : List ℕ) (w w' : World) : Prop where
  taken : free' = free ∨ ∃ i, free = i :: free'
  others : ∀ j ≠ l, (j ∈ free → j ∈ free') → w'.slots j = w.slots j
  conn : (w'.slots l).conn = (w.slots l).conn
  read : (w'.slots l).read = { (w.slots l).read with timeout := false, ready := false }
  write : (w'.slots l).write = (w.slots l).write
  history : (w.slots l).wire.history <+: (w'.slots l).wire.history
  fresh : ∀ j ∈ free, j ∉ free' →
    (w'.slots j).conn.listening = none ∧ (w'.slots j).read = Event.zero ∧
      (w'.slots j).write = { Event.zero with write := true } ∨
    ∃ a ls p q k, Established w' l a ∧ w'.slots j = acceptedSlot a.fd ls p q k
  connectionN : w'.connectionN = w.connectionN
  issued : ∀ j, j ∈ w'.issued ↔ j ∈ w.issued ∨ j ∈ free ∧ j ∉ free'
  listening : w'.listening = w.listening
  postedAcceptEvents : w'.postedAcceptEvents = w.postedAcceptEvents
  postedEvents : w'.postedEvents = w.postedEvents
  boundFds : w'.boundFds = w.boundFds
  fdArgs : ∀ s ∈ w'.fdArgs, s ∈ w.fdArgs ∨ ∃ a, Established w' l a ∧ a.fd = s
  livePools : ∀ p < w.nextPool, p ∈ w'.livePools ↔ p ∈ w.livePools
  nextPool : w.nextPool ≤ w'.nextPool

/-- The listening slot after the head of `xdbd_event_accept`, with another wire. -/
def heard (x : Wire) (s : Slot) : Slot :=
  { s with read := { s.read with timeout := false, ready := false }, wire := x }

def hear (w : World) (l : ℕ) (x : Wire) (fds : Finset ℤ) : World :=
  { w.modSlot l (heard x) with openFds := fds }

lemma slots_hear (l j : ℕ) (x : Wire) (fds : Finset ℤ) :
    (w.hear l x fds).slots j = if j = l then heard x (w.slots l) else w.slots j :=
  @slots_modSlot w l j (heard x)

lemma hear_wire (l : ℕ) (x : Wire) (fds : Finset ℤ) (g : Wire → Wire) :
    (w.hear l x fds).modSlot l (fun s => { s with wire := g s.wire }) = w.hear l (g x) fds := by
  refine World.ext (funext fun j => ?_) rfl rfl rfl rfl rfl rfl rfl rfl rfl rfl rfl rfl rfl rfl rfl
    rfl rfl
  rw [slots_modSlot, slots_hear, slots_hear, slots_hear, if_pos rfl]
  by_cases hj : j = l
  · rw [if_pos hj, if_pos hj]
    rfl
  · rw [if_neg hj, if_neg hj, if_neg hj]

lemma Table.hear (h : Table w free) (l : ℕ) (x : Wire) {fds : Finset ℤ}
    (hfds : w.openFds ⊆ fds) : Table (w.hear l x fds) free := by
  have hconn : ∀ j, ((w.hear l x fds).slots j).conn = (w.slots j).conn := by
    intro j
    rw [slots_hear]
    split_ifs with hj
    · rw [hj]
      rfl
    · rfl
  refine h.similar ⟨rfl, rfl, rfl, rfl⟩ (fun j _ => link_congr (by rw [hconn])) (fun j => ?_) hfds
    rfl rfl (h.registry.congr (fun e _ => ?_) (fun e _ => fd_congr (hconn e.slot)) rfl rfl rfl rfl
      rfl)
  · rw [slots_hear]
    split_ifs with hj
    · rw [hj]
      exact ⟨rfl, rfl, rfl, rfl, Iff.rfl, rfl, rfl, Iff.rfl, .inl rfl⟩
    · exact .refl _
  · have hidx : ∀ j, ((w.hear l x fds).slots j).read.index = (w.slots j).read.index ∧
        ((w.hear l x fds).slots j).write.index = (w.slots j).write.index := by
      intro j
      rw [slots_hear]
      split_ifs with hj
      · rw [hj]
        exact ⟨rfl, rfl⟩
      · exact ⟨rfl, rfl⟩
    cases e with
    | read j => exact (hidx j).1
    | write j => exact (hidx j).2

lemma Accepting.hear {l : ℕ} {x : Wire} {fds : Finset ℤ}
    (hx : (w.slots l).wire.history <+: x.history) : Accepting l free free w (w.hear l x fds) where
  taken := .inl rfl
  others j hj _ := by rw [slots_hear, if_neg hj]
  conn := by rw [slots_hear, if_pos rfl]; rfl
  read := by rw [slots_hear, if_pos rfl]; rfl
  write := by rw [slots_hear, if_pos rfl]; rfl
  history := by rw [slots_hear, if_pos rfl]; exact hx
  fresh j hj hj' := absurd hj hj'
  connectionN := rfl
  issued j := ⟨.inl, fun hj => hj.elim id fun hj => absurd hj.1 hj.2⟩
  listening := rfl
  postedAcceptEvents := rfl
  postedEvents := rfl
  boundFds := rfl
  fdArgs _ hs := .inl hs
  livePools _ _ := Iff.rfl
  nextPool := le_rfl

/-- The listening slot `l` has received the answer `a`, and the descriptor is open. -/
def answered (w : World) (l : ℕ) (a : AcceptResult) (rest : List AcceptResult) : World :=
  w.hear l { (w.slots l).wire with
    accepts := rest
    history := (w.slots l).wire.history ++ [.accept a w.freeConnections.isSome] }
    (insert a.fd w.openFds)

lemma eventAccept_eq {l ls : ℕ} (hls : (w.slots l).conn.listening = some ls) :
    w.eventAccept l =
      match (w.slots l).wire.accepts with
      | [] => .ok (w.hear l (w.slots l).wire w.openFds)
      | a :: rest =>
        if a.fd < 0 ∨ a.fd ∈ w.openFds then
          .ok (w.hear l { (w.slots l).wire with accepts := rest } w.openFds)
        else (w.answered l a rest).getConnection a.fd >>= fun r =>
          match r with
          | (none, v) => .ok v
          | (some i, v) => v.setUpAccepted i ls a := by
  have hhead : (w.modEvent (.read l) fun e => { e with timeout := false, ready := false }) =
      w.hear l (w.slots l).wire w.openFds := by
    refine World.ext (funext fun j => ?_) rfl rfl rfl rfl rfl rfl rfl rfl rfl rfl rfl rfl rfl rfl
      rfl rfl rfl
    rw [slots_hear]
    show (w.modSlot l fun s =>
      { s with read := { s.read with timeout := false, ready := false } }).slots j = _
    rw [slots_modSlot]
    rfl
  unfold World.eventAccept
  simp only [hhead, slots_hear, if_true]
  have hls' : (heard (w.slots l).wire (w.slots l)).conn.listening = some ls := hls
  have hwire : (heard (w.slots l).wire (w.slots l)).wire = (w.slots l).wire := rfl
  rw [hls', hwire]
  cases haccepts : (w.slots l).wire.accepts with
  | nil => rfl
  | cons a rest =>
    set x : Wire := { (w.slots l).wire with accepts := rest }
    have hpop : ((w.hear l (w.slots l).wire w.openFds).modSlot l fun s =>
        { s with wire := { s.wire with accepts := rest } }) = w.hear l x w.openFds :=
      hear_wire l _ _ fun y => { y with accepts := rest }
    set o : Obs := .accept a w.freeConnections.isSome
    have hnote : ({ w.hear l x w.openFds with openFds := insert a.fd w.openFds } : World).note l o =
        w.answered l a rest :=
      hear_wire l _ _ fun y => { y with history := y.history ++ [o] }
    simp only [hpop]
    change (if a.fd < 0 ∨ a.fd ∈ w.openFds then Except.ok (w.hear l x w.openFds)
      else (World.note { w.hear l x w.openFds with openFds := insert a.fd w.openFds } l
        o).getConnection a.fd >>= fun r =>
          match r with
          | (none, v) => .ok v
          | (some i, v) => v.setUpAccepted i ls a) = _
    rw [hnote]

lemma Table.fd_ne_of_new (h : Table w free) {j : ℕ} {fd : ℤ} (hj : w.InUse free j) (hpos : 0 ≤ fd)
    (hnew : fd ∉ w.openFds) : (w.slots j).conn.fd ≠ fd := fun hfd => by
  rcases (h.entry j hj).fd with he | ⟨-, hm⟩
  · rw [he] at hfd
    omega
  · rw [hfd] at hm
    exact hnew hm

lemma mem_issued_handOut {i j : ℕ} {issued : Finset ℕ} (hi : i ∉ free) :
    j ∈ insert i issued ↔ j ∈ issued ∨ j ∈ i :: free ∧ j ∉ free := by
  rw [Finset.mem_insert, List.mem_cons]
  constructor
  · rintro (rfl | hj)
    · exact .inr ⟨.inl rfl, hi⟩
    · exact .inl hj
  · rintro (hj | ⟨rfl | hj, hj'⟩)
    · exact .inr hj
    · exact .inl rfl
    · exact absurd hj hj'

lemma Table.handOut_answered {l i : ℕ} {next : Option ℕ} {a : AcceptResult}
    {rest : List AcceptResult} (h : Table w (i :: free)) (hpos : 0 ≤ a.fd) (hnew : a.fd ∉ w.openFds)
    (hchain : Chain (w.answered l a rest).link next free) :
    Table ((w.answered l a rest).handOut i next a.fd) free := by
  have htable : Table (w.answered l a rest) (i :: free) := h.hear l _ (Finset.subset_insert _ _)
  refine htable.handOut hchain (.inr ⟨hpos, Finset.mem_insert_self _ _⟩) fun _ j hj => ?_
  have hfd : ((w.answered l a rest).slots j).conn.fd = (w.slots j).conn.fd := by
    rw [answered, slots_hear]
    split_ifs with hjl
    · rw [hjl]
      rfl
    · rfl
  rw [hfd]
  exact h.fd_ne_of_new hj hpos hnew

lemma Table.accepting {l i ls : ℕ} {next : Option ℕ} {a : AcceptResult} {rest : List AcceptResult}
    (h : Table w (i :: free)) (hl : l ≠ i) (hpos : 0 ≤ a.fd) (hnew : a.fd ∉ w.openFds)
    (hchain : Chain (w.answered l a rest).link next free)
    (hok : ((w.answered l a rest).handOut i next a.fd).setUpAccepted i ls a = .ok w') :
    Table w' free ∧ Accepting l (i :: free) free w w' := by
  obtain ⟨hi, -⟩ := List.nodup_cons.mp h.nodup
  set v := w.answered l a rest with hv
  have hvl : v.slots l = heard { (w.slots l).wire with
      accepts := rest, history := (w.slots l).wire.history ++ [.accept a true] } (w.slots l) := by
    rw [hv, answered, slots_hear, if_pos rfl, show w.freeConnections = some i from h.chain.1]
    rfl
  obtain ⟨htable, hset⟩ := (h.handOut_answered hpos hnew hchain).setUpAccepted
    ⟨Finset.mem_insert_self _ _, hi⟩ handOut_self hpos hok
  have hl' : w'.slots l = v.slots l := (hset.others l hl).trans (handOut_of_ne hl)
  have hhist : (w'.slots l).wire.history = (w.slots l).wire.history ++ [.accept a true] := by
    rw [hl', hvl]
    rfl
  have hnoted : Obs.accept a true ∈ (w'.slots l).wire.history := by simp [hhist]
  refine ⟨htable, {
    taken := .inr ⟨i, rfl⟩
    others := fun j hj hfree => ?_
    conn := by rw [hl', hvl]; rfl
    read := by rw [hl', hvl]; rfl
    write := by rw [hl', hvl]; rfl
    history := hhist ▸ List.prefix_append _ _
    fresh := fun j hj hj' => ?_
    connectionN := hset.connectionN
    issued := fun j => by
      rw [hset.issued]
      exact mem_issued_handOut hi
    listening := hset.listening
    postedAcceptEvents := hset.postedAcceptEvents
    postedEvents := hset.postedEvents
    boundFds := hset.boundFds
    fdArgs := fun s hs => ?_
    livePools := hset.livePools
    nextPool := hset.nextPool }⟩
  · have hji : j ≠ i := fun he => hi (he ▸ hfree (by simp [he]))
    rw [hset.others j hji, handOut_of_ne hji, answered, slots_hear, if_neg hj]
  · obtain rfl : j = i := (List.mem_cons.mp hj).resolve_right hj'
    rcases hset.slot with ⟨hn, hr, hw⟩ | ⟨hp, hq, ls, p, q, k, hs⟩
    · exact .inl ⟨hn, by rw [hr, handOut_self]; rfl, by rw [hw, handOut_self]; rfl⟩
    · rw [handOut_self] at hs
      exact .inr ⟨a, ls, p, q, k, ⟨hnoted, hp, hq, hpos⟩, hs⟩
  · rcases hset.fdArgs s hs with hs | ⟨hp, hq, hs⟩
    · exact .inl hs
    · refine .inr ⟨a, ⟨hnoted, hp, hq, hpos⟩, ?_⟩
      rw [hs, handOut_self]
      rfl

/-- `xdbd_event_accept` keeps the table. It takes the first free slot at most. -/
theorem Table.eventAccept {l : ℕ} (h : Table w free) (hl : w.InUse free l)
    (hacc : (w.slots l).read.accepted = true) (hok : w.eventAccept l = .ok w') :
    ∃ free', Table w' free' ∧ Accepting l free free' w w' := by
  obtain ⟨ls, hls⟩ : ∃ ls, (w.slots l).conn.listening = some ls := by
    refine Option.ne_none_iff_exists'.mp fun hn => ?_
    exact absurd (((h.entry l hl).idle hn).1.symm.trans hacc) (by simp)
  rw [eventAccept_eq hls] at hok
  cases haccepts : (w.slots l).wire.accepts with
  | nil =>
    simp only [haccepts] at hok
    cases hok
    exact ⟨free, h.hear l _ subset_rfl, .hear List.prefix_rfl⟩
  | cons a rest =>
    simp only [haccepts] at hok
    split_ifs at hok with hbad
    · cases hok
      exact ⟨free, h.hear l _ subset_rfl, .hear List.prefix_rfl⟩
    have htable : Table (w.answered l a rest) free := h.hear l _ (Finset.subset_insert _ _)
    cases free with
    | nil =>
      rw [htable.getConnection_nil] at hok
      rw [← Except.ok.inj hok]
      exact ⟨[], htable, .hear (List.prefix_append _ _)⟩
    | cons i free =>
      obtain ⟨next, hget, hchain⟩ := htable.getConnection_cons a.fd
      rw [hget] at hok
      exact ⟨free, h.accepting hl.ne_head (not_lt.mp fun hlt => hbad (.inl hlt))
        (fun hm => hbad (.inr hm)) hchain hok⟩

end World
end Xdbd
