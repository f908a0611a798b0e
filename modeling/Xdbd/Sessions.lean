import Xdbd.Components
import Xdbd.Calls
import Xdbd.Acceptance
import Xdbd.Independence
import Xdbd.Progress
import Xdbd.ReadEvents

/-!
# Sessions

From the `accept` that sets it up to the call that closes it, an accepted connection is a
session. The table as a system of sessions: each of them goes through its own actions, and
neither the slot, the descriptor nor the other clients make a difference to it.
-/
namespace Xdbd
open Interaction Components World

variable {boot : Boot} {s t : Slot} {u v w w' : World} {free : List ℕ}

/-! ## What a handler does not see -/

/-- The slot without the names of its pools, of its descriptor and of its listening entry, and
without the bit of the posted lists. -/
def Slot.veiled (s : Slot) : Slot :=
  { s with
    conn := { s.conn with
      pool := none
      tempPool := none
      fd := if s.conn.fd = -1 then -1 else 0
      listening := s.conn.listening.map fun _ => 0 }
    read := { s.read with posted := false } }

lemma Slot.veiled_fd (s : Slot) : s.veiled.conn.fd = -1 ↔ s.conn.fd = -1 := by
  unfold Slot.veiled
  by_cases h : s.conn.fd = -1 <;> simp [h]

lemma Slot.veiled_listening (s : Slot) :
    s.veiled.conn.listening = none ↔ s.conn.listening = none := by
  simp [Slot.veiled]

lemma Slot.veiled_delRead (s : Slot) : s.veiled.delRead = (s.delRead.1, s.delRead.2.veiled) := by
  unfold Slot.delRead
  rw [show s.veiled.read.index = s.read.index from rfl]
  split_ifs <;> rfl

lemma Slot.veiled_addRead (s : Slot) : s.veiled.addRead = s.addRead.veiled := by
  unfold Slot.addRead
  rw [show s.veiled.read.index = s.read.index from rfl]
  split_ifs <;> rfl

lemma Slot.veiled_handleReadEvent (s : Slot) (closeEvent : Bool) :
    s.veiled.handleReadEvent closeEvent =
      ((s.handleReadEvent closeEvent).1, (s.handleReadEvent closeEvent).2.veiled) := by
  unfold Slot.handleReadEvent
  rw [s.veiled_addRead, Slot.veiled_delRead, show s.veiled.read.active = s.read.active from rfl,
    show s.veiled.read.ready = s.read.ready from rfl,
    show s.addRead.veiled.read.active = s.addRead.read.active from rfl,
    show s.addRead.veiled.read.ready = s.addRead.read.ready from rfl]
  split_ifs <;> rfl

lemma Slot.veiled_closed (s : Slot) : s.veiled.closed = s.closed.veiled := rfl

/-- Two results on a slot and behind the veil. -/
def VeiledAgree {α : Type} (x y : Except Fault (α × Slot)) : Prop :=
  Prog.Agree (fun s t => t = s.veiled) x y

lemma Slot.veiled_palloc (s : Slot) (size : ℕ) :
    s.veiled.palloc size = ((s.palloc size).1, (s.palloc size).2.veiled) := by
  unfold Slot.palloc
  rw [show s.veiled.wire = s.wire from rfl]
  split_ifs
  · rfl
  · cases s.wire.allocs <;> rfl

lemma Slot.veiled_recv (s : Slot) (b : Buf) (off : ℤ) (size : ℕ) :
    VeiledAgree (s.recv b off size) (s.veiled.recv b off size) := by
  have hr : unixRecv s.veiled.read size s.veiled.wire.recvs = _ :=
    unixRecv_map (f := fun e => { e with posted := false }) (fun _ => rfl) (fun _ => rfl)
      (fun _ => rfl) s.read size s.wire.recvs
  unfold Slot.recv
  simp only [hr]
  split_ifs
  · trivial
  · exact ⟨rfl, rfl⟩

/-- No operation of a handler on its own connection looks behind the veil. -/
theorem SlotOp.exec_veiled (o : SlotOp) (s : Slot) : VeiledAgree (o.exec s) (o.exec s.veiled) := by
  have hd : s.veiled.conn.destroyed = s.conn.destroyed := rfl
  cases o with
  | readEvent | setHandler _ | setTimeout | note _ => exact ⟨rfl, rfl⟩
  | fault f => trivial
  | getBuffer | setBuffer _ | setRequest _ | setData _ =>
    simp only [SlotOp.exec, hd]
    split_ifs
    · trivial
    · exact ⟨rfl, rfl⟩
  | getRequest =>
    simp only [SlotOp.exec, hd]
    split_ifs
    · trivial
    · rw [show s.veiled.conn.data = s.conn.data from rfl]
      cases s.conn.data with
      | null | conn _ => trivial
      | request r => exact ⟨rfl, rfl⟩
  | palloc size =>
    simp only [SlotOp.exec, hd, Slot.veiled_palloc]
    split_ifs
    · trivial
    · exact ⟨rfl, rfl⟩
  | recv off size =>
    simp only [SlotOp.exec, hd]
    rw [show s.veiled.conn.unixIo = s.conn.unixIo from rfl,
      show s.veiled.conn.buffer = s.conn.buffer from rfl]
    split_ifs
    · trivial
    · cases s.conn.buffer with
      | none => trivial
      | some b => exact s.veiled_recv b off size
    · trivial
  | send bs =>
    simp only [SlotOp.exec, hd]
    rw [show s.veiled.conn.unixIo = s.conn.unixIo from rfl]
    split_ifs
    · trivial
    · exact ⟨rfl, rfl⟩
    · trivial

theorem veiled_simulates : Prog.Simulates Slot.exec Slot.exec fun s t => t = s.veiled := by
  rintro op s _ rfl
  cases op with
  | slot o => exact o.exec_veiled s
  | handleReadEvent flags =>
    simp only [Slot.exec, s.veiled_handleReadEvent]
    exact ⟨rfl, rfl⟩
  | delReadEvent =>
    simp only [Slot.exec, s.veiled_delRead]
    exact ⟨rfl, rfl⟩
  | closeConnection =>
    simp only [Slot.exec, s.veiled_listening, s.veiled_fd, s.veiled_closed]
    split_ifs
    · trivial
    · trivial
    · exact ⟨rfl, rfl⟩

/-! ## The sessions of the table -/

/-- The connection is accepted and not closed. -/
def Slot.living (s : Slot) : Option Slot :=
  if s.read.accepted = false ∧ s.conn.listening ≠ none ∧ s.conn.destroyed = false then some s
  else none

/-- A slot as the session on it is seen; that the event has been reported is no part of it. -/
def Slot.session (s : Slot) : Slot := s.norm.veiled.readied

/-- The session on the slot `i`, and `none` before the first, between two and after the last. -/
def World.session (w : World) (i : ℕ) : Option Slot :=
  if i ∈ w.issued then (w.slots i).session.living else none

/-- What happens to a session: it is set up, the answers of the kernel to its calls are chosen, or
its read handler is called. -/
inductive Action
  | accept
  | feed (x : Script)
  | event

/-- A session as it is set up. -/
def newborn : Slot := (acceptedSlot 0 0 0 0 0).session

/-- A call of the read handler. -/
def Slot.call (s : Slot) : Except Fault Slot :=
  match s.read.handler with
  | some (.adb hd) => (Prog.run Slot.exec (code hd) s).map Prod.snd
  | _ => .error .nullCall

def Slot.fed (x : Script) (s : Slot) : Slot :=
  { s with wire := ⟨x.recvs, x.sends, x.accepts, x.allocs, s.wire.history⟩ }

/-- A session by itself. An action that cannot happen in its state has no result. -/
def Action.next : Action → Option Slot → Option (Option Slot)
  | .accept, none => some (some newborn)
  | .accept, some _ => none
  | .feed x, s => some (s.map (Slot.fed x))
  | .event, none => none
  | .event, some s => s.call.toOption.map fun t => t.readied.living

lemma Slot.living_fed (x : Script) (s : Slot) : (s.fed x).living = s.living.map (Slot.fed x) := by
  unfold Slot.living
  rw [show (s.fed x).read = s.read from rfl, show (s.fed x).conn = s.conn from rfl]
  split_ifs <;> rfl

lemma Slot.readied_self (h : s.read.ready = true) : s.readied = s := by
  unfold Slot.readied
  rw [← h]

/-! ## The actions of a turn -/

/-- The connection that a call of `xdbd_event_accept` on the slot `l` sets up. -/
def World.establishes (w : World) (l : ℕ) : Option (ℕ × Action) :=
  match (w.slots l).wire.accepts, w.freeConnections with
  | a :: _, some i =>
    if 0 ≤ a.fd ∧ a.fd ∉ w.openFds ∧ a.pool ∧ a.tempPool ∧ a.sockaddr ∧ a.nonblocking then
      some (i, .accept)
    else none
  | _, _ => none

/-- The action of a session that a call is. -/
def action (c : Ev × World) : Option (ℕ × Action) :=
  match (c.2.event c.1).handler with
  | some (.adb _) => some (c.1.slot, .event)
  | some .eventAccept => c.2.establishes c.1.slot
  | none => none

/-- The actions of a turn, in the order of the calls. -/
def World.turnActions (w : World) (kernel : Kernel) : List (ℕ × Action) :=
  (w.processEventsAndTimers kernel).1.filterMap action

namespace World

lemma session_congr {i j : ℕ} (hi : i ∈ w'.issued ↔ j ∈ w.issued)
    (hs : (w'.slots i).session = (w.slots j).session) : w'.session i = w.session j := by
  unfold session
  simp only [hi, hs]

lemma session_of_norm {i : ℕ} (hi : i ∈ w'.issued ↔ i ∈ w.issued)
    (hs : (w'.slots i).norm = (w.slots i).norm) : w'.session i = w.session i :=
  session_congr hi (by unfold Slot.session; rw [hs])

lemma session_peer {i : ℕ} (hp : w.Peer i) (ha : (w.slots i).conn.destroyed = false) :
    w.session i = some (w.slots i).session := by
  have hl : (w.slots i).session.conn.listening ≠ none := fun hn =>
    hp.listening ((Slot.veiled_listening _).mp hn)
  unfold session Slot.living
  rw [if_pos hp.issued, if_pos ⟨hp.accepted, hl, ha⟩]

lemma session_none {i : ℕ} (h : ¬ (w.Peer i ∧ (w.slots i).conn.destroyed = false)) :
    w.session i = none := by
  unfold session Slot.living
  split_ifs with hi hs
  · refine absurd ⟨⟨hi, hs.1, fun hn => hs.2.1 ?_⟩, hs.2.2⟩ h
    exact (Slot.veiled_listening _).mpr hn
  · rfl
  · rfl

lemma Table.session_free (h : Table w free) {i : ℕ} (hi : i ∈ free) : w.session i = none :=
  session_none fun hn => by
    have := h.released i hi hn.1.issued
    rw [hn.2] at this
    cases this

lemma Table.session_peer (h : Table w free) {i : ℕ} (hp : w.Peer i) (hi : i ∉ free) :
    w.session i = some (w.slots i).session :=
  World.session_peer hp (h.entry i ⟨hp.issued, hi⟩).alive

lemma Table.session_some (h : Table w free) {i : ℕ} (hs : w.session i ≠ none) :
    w.Peer i ∧ i ∉ free := by
  refine ⟨?_, fun hi => hs (h.session_free hi)⟩
  by_contra hp
  exact hs (session_none fun hn => hp hn.1)

lemma session_listener {i : ℕ} (ha : (w.slots i).read.accepted = true) : w.session i = none :=
  session_none fun hn => by
    rw [hn.1.accepted] at ha
    cases ha

lemma session_deletePostedEvent (i j : ℕ) :
    (w.deletePostedEvent (.read i)).session j = w.session j := by
  refine session_congr Iff.rfl ?_
  rw [slots_deletePostedEvent]
  by_cases hj : j = i
  · rw [hj, if_pos rfl]
    rfl
  · rw [if_neg hj]

/-! ## The actions one by one -/

lemma path_feed (w : World) (i : ℕ) (x : Script) :
    Path Action.next w.session [(i, .feed x)] (w.feed i x).session := by
  refine .single ?_ fun j hj => session_congr Iff.rfl ?_
  · have hs : ((w.feed i x).slots i).session = (w.slots i).session.fed x := by
      rw [slots_feed, if_pos rfl]
      rfl
    unfold session
    rw [hs, Slot.living_fed, show (w.feed i x).issued = w.issued from rfl]
    split_ifs <;> rfl
  · rw [slots_feed, if_neg hj]

lemma Idle.session_selected (h : Idle w free) {kernel : Kernel} (hk : Allowed w kernel) :
    (w.selectProcessEvents kernel).2.session = w.session := by
  have hsel := h.selected hk
  generalize (w.selectProcessEvents kernel).2 = v at hsel ⊢
  funext j
  cases hsel with
  | failed _ hslots hissued _ _ => exact session_congr (by rw [hissued]) (by rw [hslots])
  | @ready n readSet writeSet _ _ =>
    have hslot : w.refreshMaxFd.slots j = w.slots j := by rw [w.slots_refreshMaxFd]
    have hnot : Ev.write j ∉ w.readyEvents readSet writeSet := fun hm => by
      obtain ⟨i, hi⟩ := h.table.registered_read (List.mem_filter.mp hm).1
      cases hi
    refine session_congr (by rw [← w.issued_refreshMaxFd]; rfl) ?_
    rw [slots_scanned, hslot, if_neg hnot]
    split_ifs <;> rfl

lemma Batch.path_handler (h : Batch u free) {i : ℕ} (hi : .read i ∈ u.postedEvents)
    (hok : u.callHandler (.read i) = .ok v) :
    action (.read i, u) = some (i, .event) ∧
      Path Action.next u.session [(i, .event)] v.session := by
  obtain ⟨_, he, hp, hf, hready⟩ := h.others _ hi
  obtain rfl := Ev.read.inj he
  obtain ⟨free', hd, hhd, hframe, hrun, -⟩ := h.handler hi hok
  refine ⟨?_, .single ?_ fun j hj =>
    session_of_norm (by rw [hframe.issued]) (hframe.others j hj).norm⟩
  · unfold action
    rw [show (u.event (.read i)).handler = some (.adb hd) from hhd]
    rfl
  rw [h.table.session_peer hp hf]
  -- the event has been reported, so the handler is called on the session itself
  have hself : (u.slots i).session = (u.slots i).norm.veiled := Slot.readied_self hready
  have hcall : (u.slots i).session.call = .ok (v.slots i).norm.veiled := by
    have hsim := veiled_simulates.run (code hd) (s := (u.slots i).norm) rfl
    rw [hrun] at hsim
    rw [hself]
    unfold Slot.call
    rw [show (u.slots i).norm.veiled.read.handler = some (.adb hd) from hhd]
    rcases hsim.cases with ⟨e, e', hx, hy⟩ | ⟨a, x, y, hx, hy, hxy⟩
    · cases hx
    · cases hx
      dsimp only
      rw [hy, hxy]
      rfl
  have hissued : i ∈ v.issued := hframe.issued ▸ hp.issued
  show ((u.slots i).session.call.toOption.map fun t => t.readied.living) = _
  rw [hcall]
  unfold session
  rw [if_pos hissued]
  rfl

lemma session_hear {l : ℕ} (hl : (w.slots l).read.accepted = true) (x : Wire) (fds : Finset ℤ) :
    (w.hear l x fds).session = w.session := by
  funext j
  by_cases hj : j = l
  · subst hj
    rw [session_listener hl]
    exact session_listener (by rw [slots_hear, if_pos rfl]; exact hl)
  · exact session_congr Iff.rfl (by rw [slots_hear, if_neg hj])

lemma session_handOut {i : ℕ} (hi : w.session i = none) (next : Option ℕ) (s : ℤ) :
    (w.handOut i next s).session = w.session := by
  funext j
  by_cases hj : j = i
  · subst hj
    rw [hi]
    refine session_none fun hn => hn.1.listening ?_
    rw [handOut_self]
    rfl
  · refine session_congr ?_ (by rw [handOut_of_ne hj])
    exact Finset.mem_insert.trans (or_iff_right hj)

lemma session_withPool (w : World) (i : ℕ) : (w.withPool i).session = w.session := by
  funext j
  refine session_congr Iff.rfl ?_
  rw [slots_withPool]
  by_cases hj : j = i
  · rw [hj, if_pos rfl]
    rfl
  · rw [if_neg hj]

lemma session_acceptedSlot {s : ℤ} (hs : 0 ≤ s) (ls p q k : ℕ) :
    (acceptedSlot s ls p q k).session.living = some newborn := by
  have hfd : s ≠ -1 := by omega
  have hsame : (acceptedSlot s ls p q k).session = newborn := by
    simp [newborn, acceptedSlot, Slot.session, Slot.veiled, Slot.norm, Event.norm, Connection.zero,
      hfd]
  rw [hsame]
  rfl

lemma establishes_none {l : ℕ} (h : ∀ a rest i, (u.slots l).wire.accepts = a :: rest →
    u.freeConnections = some i →
      ¬ (0 ≤ a.fd ∧ a.fd ∉ u.openFds ∧ a.pool ∧ a.tempPool ∧ a.sockaddr ∧ a.nonblocking)) :
    u.establishes l = none := by
  unfold establishes
  cases ha : (u.slots l).wire.accepts with
  | nil => rfl
  | cons a rest =>
    cases hi : u.freeConnections with
    | none => rfl
    | some i => exact if_neg (h a rest i ha hi)

lemma NewSlot.establishes {l i : ℕ} {a : AcceptResult} {rest : List AcceptResult}
    (hs : NewSlot u l free a rest i) (hp : a.pool = true) (hq : a.tempPool = true)
    (hc : (a.sockaddr && a.nonblocking) = true) : u.establishes l = some (i, .accept) := by
  unfold World.establishes
  rw [hs.accepts, hs.first]
  rw [Bool.and_eq_true] at hc
  exact if_pos ⟨hs.pos, hs.new, hp, hq, hc.1, hc.2⟩

lemma NewSlot.session {l i : ℕ} {a : AcceptResult} {rest : List AcceptResult} (h : Table u free)
    (hacc : (u.slots l).read.accepted = true) (hs : NewSlot u l free a rest i)
    (next : Option ℕ) : ((u.answered l a rest).handOut i next a.fd).session = u.session := by
  have hsame : (u.answered l a rest).session = u.session := session_hear hacc _ _
  refine (session_handOut ?_ _ _).trans hsame
  rw [hsame]
  exact h.session_free hs.mem

lemma Table.path_accept (h : Table u free) {l : ℕ} (hl : u.InUse free l)
    (hacc : (u.slots l).read.accepted = true) (hok : u.eventAccept l = .ok v) :
    Path Action.next u.session (u.establishes l).toList v.session := by
  have hstay : u.establishes l = none → v.session = u.session →
      Path Action.next u.session (u.establishes l).toList v.session := fun hnone hsame => by
    rw [hnone, hsame]
    exact .done _
  have hcase := h.acceptCall hl hacc
  rw [hok] at hcase
  cases hcase with
  | silent x _ hno =>
    exact hstay (establishes_none fun a rest _ ha _ hn => hn.2.1 (hno a rest ha hn.1))
      (session_hear hacc _ _)
  | full _ _ _ hfull =>
    refine hstay (establishes_none fun _ _ i _ hi => ?_) (session_hear hacc _ _)
    cases hfull.symm.trans hi
  | noPool hs hp =>
    refine hstay (establishes_none fun a' _ _ ha _ hn => ?_) (hs.session h hacc _)
    obtain ⟨rfl, -⟩ := List.cons.inj (ha.symm.trans hs.accepts)
    simp [hp] at hn
  | onePool hs _ hq =>
    refine hstay (establishes_none fun a' _ _ ha _ hn => ?_)
      ((session_withPool _ _).trans (hs.session h hacc _))
    obtain ⟨rfl, -⟩ := List.cons.inj (ha.symm.trans hs.accepts)
    simp [hq] at hn
  | @established a rest i ls next hs hp hq hc =>
    have hslots := @slots_established ((u.answered l a rest).handOut i next a.fd) i ls a.fd
      handOut_self
    have hin : i ∈ (((u.answered l a rest).handOut i next a.fd).established i ls).issued :=
      Finset.mem_insert_self _ _
    rw [hs.establishes hp hq hc]
    refine .single ?_ fun j hj => ?_
    · rw [h.session_free hs.mem]
      show some (some newborn) = _
      unfold session
      rw [if_pos hin, hslots, if_pos rfl, session_acceptedSlot hs.pos]
    · rw [← hs.session h hacc next]
      exact session_congr (by rfl) (by rw [hslots, if_neg hj])

theorem path_calling {ev : Ev} (h : Calling u ev v) :
    Path Action.next u.session (action (ev, u)).toList v.session := by
  obtain ⟨⟨free, hb⟩, hev, x, hcall, rfl⟩ := h
  rcases List.mem_append.mp hev with hA | hP
  · obtain ⟨l, rfl, hl, hacc⟩ := hb.accepts _ hA
    have hh : (u.event (.read l)).handler = some .eventAccept :=
      ((hb.table.entry l hl).listener hacc).1
    have hok : u.eventAccept l = .ok x := by
      unfold callHandler at hcall
      rw [hh] at hcall
      exact hcall
    have hlabel : action (.read l, u) = u.establishes l := by
      unfold action
      rw [hh]
      rfl
    rw [hlabel, show (x.deletePostedEvent (.read l)).session = x.session from
      funext fun j => session_deletePostedEvent l j]
    exact hb.table.path_accept hl hacc hok
  · obtain ⟨i, rfl, -⟩ := hb.others _ hP
    obtain ⟨hlabel, hpath⟩ := hb.path_handler hP hcall
    rw [hlabel, show (x.deletePostedEvent (.read i)).session = x.session from
      funext fun j => session_deletePostedEvent i j]
    exact hpath

theorem path_calls {l : List (Ev × World)} (h : Calls u l v) :
    Path Action.next u.session (l.filterMap action) v.session := by
  induction h with
  | none w => exact .done _
  | @next u v w ev l first rest ih =>
    have hone := path_calling first
    rw [List.filterMap_cons]
    cases hlabel : action (ev, u) with
    | none =>
      rw [hlabel] at hone
      exact hone.append ih
    | some a =>
      rw [hlabel] at hone
      exact hone.append ih

theorem Idle.path_turn (h : Idle w free) {kernel : Kernel} (hk : Allowed w kernel)
    (hfin : (w.processEventsAndTimers kernel).2 = .ok w') :
    Path Action.next w.session (w.turnActions kernel) w'.session := by
  rw [← h.session_selected hk]
  exact path_calls (h.calls hk hfin)

/-- The events that `select` reports, in index order. -/
def reported (w : World) (kernel : Kernel) : List Ev :=
  match kernel.select w.nfds w.masterRead w.masterWrite with
  | .ready n readSet writeSet => if n = 0 then [] else w.readyEvents readSet writeSet
  | .fail _ => []

lemma Idle.posted_selected (h : Idle w free) {kernel : Kernel} (hk : Allowed w kernel) :
    (w.selectProcessEvents kernel).2.postedAcceptEvents =
        (w.reported kernel).filter (fun e => (w.event e).accepted) ∧
      (w.selectProcessEvents kernel).2.postedEvents =
        (w.reported kernel).filter fun e => !(w.event e).accepted := by
  have hidle := h.refreshMaxFd
  unfold reported
  cases hsel : kernel.select w.nfds w.masterRead w.masterWrite with
  | fail ebadf =>
    rw [selectProcessEvents_fail hsel]
    cases ebadf <;> exact ⟨hidle.noAccepts, hidle.noOthers⟩
  | ready n readSet writeSet =>
    by_cases hn : n = 0
    · rw [hn] at hsel
      rw [selectProcessEvents_zero hsel]
      dsimp only
      rw [if_pos hn]
      exact ⟨hidle.noAccepts, hidle.noOthers⟩
    · have hevent : ∀ e, w.refreshMaxFd.event e = w.event e := fun e => event_congr (by simp) e
      have hlists := hidle.scanned_lists w.registered
        (F := w.readyEvents readSet writeSet) fun e he => by
          rw [registered_refreshMaxFd]
          exact (List.mem_filter.mp he).1
      rw [h.table.registry.selectProcessEvents h.table.distinctFds h.table.dirFlags hk.ready hn
        hsel]
      dsimp only
      rw [if_neg hn]
      simp only [hevent] at hlists
      exact hlists

lemma own_events {i : ℕ} {evs : List Ev} (hn : evs.Nodup) (hr : ∀ e ∈ evs, ∃ j, e = .read j) :
    own i (evs.map fun e => (e.slot, Action.event)) =
      if .read i ∈ evs then [.event] else [] := by
  induction evs with
  | nil => rfl
  | cons e evs ih =>
    obtain ⟨he, hn'⟩ := List.nodup_cons.mp hn
    obtain ⟨⟨j, rfl⟩, hr'⟩ := List.forall_mem_cons.mp hr
    rw [List.map_cons, own_cons, ih hn' hr']
    by_cases hji : j = i
    · subst hji
      simp [he, Ev.slot]
    · simp [hji, Ev.slot, Ne.symm hji]

/-- What a turn is for an open session: one call if its event was reported, and else nothing. -/
theorem Idle.own_turn (h : Idle w free) {kernel : Kernel} (hk : Allowed w kernel)
    (hfin : (w.processEventsAndTimers kernel).2 = .ok w') {i : ℕ} (hi : w.session i ≠ none) :
    own i (w.turnActions kernel) = if .read i ∈ w.reported kernel then [.event] else [] := by
  have hbatch := (h.selected hk).batch h
  obtain ⟨l, m, x, hlm, hl, -, hmap, hacc, hadb⟩ := hbatch.calls rfl hfin
  -- no connection is accepted into the slot of an open session
  have hfirst : own i (l.filterMap action) = [] := by
    have hpath := (path_calls hl).component i
    have hall : ∀ a ∈ own i (l.filterMap action), a = .accept := by
      intro a ha
      obtain ⟨⟨j, b⟩, hb, ha⟩ := List.mem_filterMap.mp ha
      obtain ⟨c, hc, hcb⟩ := List.mem_filterMap.mp hb
      unfold action at hcb
      rw [hacc c hc] at hcb
      have hb : b = .accept := by
        change c.2.establishes c.1.slot = some (j, b) at hcb
        unfold establishes at hcb
        split at hcb
        · split_ifs at hcb
          cases hcb
          rfl
        · cases hcb
      split_ifs at ha
      cases ha
      exact hb
    rw [h.session_selected hk] at hpath
    cases ho : own i (l.filterMap action) with
    | nil => rfl
    | cons a rest =>
      rw [ho] at hpath hall
      obtain rfl := hall a List.mem_cons_self
      obtain ⟨s, hs⟩ := Option.ne_none_iff_exists'.mp hi
      rw [hs] at hpath
      cases hpath
  have hsecond : m.filterMap action =
      (w.selectProcessEvents kernel).2.postedEvents.map fun e => (e.slot, .event) := by
    rw [← hmap, List.map_map, ← List.filterMap_eq_map]
    refine List.filterMap_congr fun c hc => ?_
    obtain ⟨hd, hhd⟩ := hadb c hc
    unfold action
    rw [hhd]
    rfl
  have hnodup := (List.nodup_append.mp hbatch.nodup).2.1
  have hreads : ∀ e ∈ (w.selectProcessEvents kernel).2.postedEvents, ∃ j, e = .read j := by
    intro e he
    obtain ⟨j, hj, -⟩ := hbatch.others e he
    exact ⟨j, hj⟩
  have hpeer : (w.event (.read i)).accepted = false := (h.table.session_some hi).1.accepted
  unfold turnActions
  rw [hlm, List.filterMap_append, own_append, hfirst, hsecond, own_events hnodup hreads,
    (h.posted_selected hk).2]
  simp [hpeer]

end World

/-! ## Runs -/

/-- Steps at the top of the loop, with the actions of the sessions in them. -/
inductive Acts (u : World) : List (ℕ × Action) → World → Prop
  | none : Acts u [] u
  | feed {l : List (ℕ × Action)} {w : World} (prior : Acts u l w) (i : ℕ) (x : Script) :
      Acts u (l ++ [(i, .feed x)]) (w.feed i x)
  | turn {l : List (ℕ × Action)} {w w' : World} (prior : Acts u l w) (kernel : Kernel)
      (allowed : Allowed w kernel) (finished : (w.processEventsAndTimers kernel).2 = .ok w') :
      Acts u (l ++ w.turnActions kernel) w'

variable {boot' : Boot} {l m : List (ℕ × Action)}

lemma Acts.run (h : Acts u l w) (hu : Run boot u) : Run boot w := by
  induction h with
  | none => exact hu
  | feed prior i x ih => exact ih.step (.feed _ i x)
  | turn prior kernel allowed finished ih => exact ih.step (.turn kernel allowed finished)

theorem Run.acts (h : Run boot w) : ∃ u l, Started boot u ∧ Acts u l w := by
  induction h with
  | start started => exact ⟨_, [], started, .none⟩
  | step prior next ih =>
    obtain ⟨u, l, hu, hl⟩ := ih
    cases next with
    | feed i x => exact ⟨u, _, hu, hl.feed i x⟩
    | turn kernel allowed finished => exact ⟨u, _, hu, hl.turn kernel allowed finished⟩

lemma Started.session (h : Started boot w) (i : ℕ) : w.session i = none := by
  obtain ⟨-, free, -, -, hr⟩ :=
    @Started.registering boot w (fun _ => True) h fun _ _ _ _ => trivial
  exact session_none fun hn => by
    have := (hr.listeners i hn.1.issued).2
    rw [hn.1.accepted] at this
    cases this

lemma Acts.path (h : Acts u l w) (hu : Run boot u) :
    Path Action.next u.session l w.session := by
  induction h with
  | none => exact .done _
  | feed prior i x ih => exact ih.append (path_feed _ i x)
  | turn prior kernel allowed finished ih =>
    obtain ⟨free, hidle⟩ := (prior.run hu).idle
    exact ih.append (hidle.path_turn allowed finished)

/-- A run of the daemon is a run of a system of sessions that do not know of each other. -/
theorem Run.sessions_path (h : Run boot w) :
    ∃ u l, Started boot u ∧ Acts u l w ∧ Path Action.next (fun _ => none) l w.session := by
  obtain ⟨u, l, hu, hl⟩ := h.acts
  have hstart : u.session = fun _ => none := funext hu.session
  exact ⟨u, l, hu, hl, hstart ▸ hl.path (.start hu)⟩

theorem Run.sessions_path_two : ∃ u l, Started (.single 3 3) u ∧ Acts u l twoClients ∧
    Path Action.next (fun _ => none) l twoClients.session :=
  Run.sessions_path run_twoClients

/-- The answer of the kernel to clients that knock. -/
def knock (fds : List ℤ) : Script := ⟨[], [], fds.map fun s => ⟨s, true, true, true, true⟩, []⟩

lemma Acts.reporting (h : Acts u l w) (S : Finset ℤ) (hS : S ⊆ w.masterRead)
    (hfds : ∀ s ∈ S, 0 ≤ s ∧ s < w.nfds)
    (hok : (w.processEventsAndTimers (.reporting S)).2 = .ok (w.afterTurn S)) :
    Acts u (l ++ w.turnActions (.reporting S)) (w.afterTurn S) :=
  h.turn _ (.reporting S hS hfds) hok

lemma acts_oneClient (x : Script) : Acts (afterStart (.single 2 3))
    [(0, .feed (knock [4])), (1, .accept), (1, .feed x)] (oneClient x) := by
  have h₁ := (Acts.none (u := afterStart (.single 2 3))).feed 0 (knock [4])
  have h₂ := h₁.reporting {3} (by decide) (by decide) rfl
  exact h₂.feed 1 x

def oneByte (c : UInt8) : Script := ⟨[.bytes [c]], [], [], []⟩

/-- What a client has met with is its own doing: in two daemons, with whatever start-up and
whatever other clients, two connections that were alike and since then had the same actions of
their own are alike, in their slots and in their past. -/
theorem Acts.noninterference (h : Acts u l w) (h' : Acts v m w') (hu : Run boot u)
    (hv : Run boot' v) {i j : ℕ} (hsame : u.session i = v.session j) (hown : own i l = own j m) :
    w.session i = w'.session j :=
  (h.path hu).agree (h'.path hv) hsame hown

lemma acts_twoClients : Acts (afterStart (.single 3 3))
    [(0, .feed (knock [4, 5])), (1, .accept), (2, .accept), (1, .feed (oneByte 67)),
      (2, .feed (oneByte 79))] twoClients := by
  have h₁ := (Acts.none (u := afterStart (.single 3 3))).feed 0 (knock [4, 5])
  have h₂ := h₁.reporting {3} (by decide) (by decide) rfl
  have h₃ := h₂.reporting {3} (by decide) (by decide) rfl
  exact (h₃.feed 1 (oneByte 67)).feed 2 (oneByte 79)

/-- The second of two clients and one that is alone. -/
theorem Acts.noninterference_clients :
    twoClients.session 2 = (oneClient (oneByte 79)).session 1 := by
  have hu : Started (.single 3 3) (afterStart (.single 3 3)) := ⟨by decide, by decide, rfl⟩
  have hv : Started (.single 2 3) (afterStart (.single 2 3)) := ⟨by decide, by decide, rfl⟩
  exact acts_twoClients.noninterference (acts_oneClient (oneByte 79)) (.start hu) (.start hv)
    ((hu.session 2).trans (hv.session 1).symm) rfl

/-- A turn is one call of the handler for an open session whose bit is reported, and nothing for
the other open sessions. -/
theorem Run.event_if_reported (h : Run boot w) {kernel : Kernel} (hk : Allowed w kernel)
    (hfin : (w.processEventsAndTimers kernel).2 = .ok w') {i : ℕ} (hi : w.session i ≠ none) :
    own i (w.turnActions kernel) = if .read i ∈ w.reported kernel then [.event] else [] := by
  obtain ⟨free, hidle⟩ := h.idle
  exact hidle.own_turn hk hfin hi

theorem Run.event_if_reported_two : own 1 (twoClients.turnActions (.reporting {4})) =
    if .read 1 ∈ twoClients.reported (.reporting {4}) then [.event] else [] :=
  @Run.event_if_reported (.single 3 3) twoClients _ run_twoClients (.reporting {4})
    (.reporting {4} (by decide) (by decide)) rfl 1 (Option.some_ne_none _)

end Xdbd
