import Xdbd.Turns

/-!
# Start-up

The listening sockets, the fresh table with every slot on the free list, and the first
slots handed out to the listening entries.
-/
namespace Xdbd
open LinkedChain

namespace World
variable {w w' : World} {free : List ℕ}

/-! ## The listening sockets -/

/-- The state while the listening sockets are opened. -/
structure Opened (boot : Boot) (w : World) : Prop where
  frame : w = { blank boot with
    listening := w.listening, openFds := w.openFds, boundFds := w.boundFds }
  fds : ∀ ls ∈ w.listening,
    ls.fd = -1 ∨ 0 ≤ ls.fd ∧ ls.fd ∈ w.openFds ∧ ls.fd ∈ w.boundFds
  distinct : w.listening.Pairwise fun a b => a.fd = b.fd → a.fd = -1

lemma Opened.blank (boot : Boot) : Opened boot (blank boot) :=
  ⟨rfl, fun _ h => absurd h List.not_mem_nil, List.Pairwise.nil⟩

lemma Opened.push {boot : Boot} {O B : Finset ℤ} {ls : Listening} (h : Opened boot w)
    (hO : w.openFds ⊆ O) (hB : w.boundFds ⊆ B)
    (hls : ls.fd = -1 ∨ 0 ≤ ls.fd ∧ ls.fd ∈ O ∧ ls.fd ∈ B ∧ ls.fd ∉ w.openFds) :
    Opened boot { w with openFds := O, boundFds := B, listening := w.listening ++ [ls] } := by
  refine ⟨?_, fun a ha => ?_, ?_⟩
  · rw [h.frame]
  · rcases List.mem_append.mp ha with ha | ha
    · exact (h.fds a ha).imp_right fun hf => ⟨hf.1, hO hf.2.1, hB hf.2.2⟩
    · rw [List.mem_singleton.mp ha]
      exact hls.imp_right fun hf => ⟨hf.1, hf.2.1, hf.2.2.1⟩
  · rw [List.pairwise_append]
    refine ⟨h.distinct, List.pairwise_singleton _ _, fun a ha b hb hab => ?_⟩
    obtain rfl := List.mem_singleton.mp hb
    rcases hls with hf | ⟨-, -, -, hnew⟩
    · exact hab.trans hf
    · rcases h.fds a ha with hf | ⟨-, hopen, -⟩
      · exact hf
      · exact absurd (hab ▸ hopen) hnew

lemma Opened.openListeningSocket {boot : Boot} {e : SocketResult} {ls : Listening}
    (h : Opened boot w) (hok : w.openListeningSocket e = (.ok, ls, w')) :
    Opened boot { w' with listening := w'.listening ++ [ls] } ∧
      (e.bind = true → e.listen = true → 0 ≤ e.fd ∧ ls.fd = e.fd) := by
  unfold World.openListeningSocket at hok
  split_ifs at hok with hbad hnb hbind hlisten
  · cases hok
  · cases hok
  · cases hok
    exact ⟨h.push (Finset.subset_insert _ _) subset_rfl (.inl rfl), fun hb => by simp [hb] at hbind⟩
  · cases hok
    exact ⟨h.push (Finset.subset_insert _ _) subset_rfl (.inl rfl),
      fun _ hl => by simp [hl] at hlisten⟩
  · cases hok
    refine ⟨h.push (Finset.subset_insert _ _) (Finset.subset_insert _ _) (.inr ⟨?_, ?_, ?_, ?_⟩),
      fun _ _ => ⟨?_, rfl⟩⟩
    · exact not_lt.mp fun hlt => hbad (.inl hlt)
    · exact Finset.mem_insert_self _ _
    · exact Finset.mem_insert_self _ _
    · exact fun hm => hbad (.inr hm)
    · exact not_lt.mp fun hlt => hbad (.inl hlt)

lemma openListeningSockets_cons {e : SocketResult} {es : List SocketResult}
    (hok : w.openListeningSockets (e :: es) = (.ok, w')) :
    ∃ ls v, w.openListeningSocket e = (.ok, ls, v) ∧
      openListeningSockets es { v with listening := v.listening ++ [ls] } = (.ok, w') := by
  simp only [World.openListeningSockets] at hok
  split at hok
  · exact ⟨_, _, ‹_›, hok⟩
  · cases hok

lemma Opened.openListeningSockets {boot : Boot} {es : List SocketResult} (h : Opened boot w)
    (hok : w.openListeningSockets es = (.ok, w')) : Opened boot w' := by
  induction es generalizing w with
  | nil =>
    obtain rfl : w = w' := (Prod.ext_iff.mp hok).2
    exact h
  | cons e es ih =>
    obtain ⟨ls, v, hone, hrest⟩ := openListeningSockets_cons hok
    exact ih (h.openListeningSocket hone).1 hrest

/-- When every socket is bound and listening, the entries have the descriptors of their
sockets. -/
lemma Opened.fds_of_success {boot : Boot} {S : ℤ → Prop} {es : List SocketResult}
    (h : Opened boot w) (hS : ∀ ls ∈ w.listening, S ls.fd)
    (hes : ∀ e ∈ es, e.bind = true ∧ e.listen = true ∧ (0 ≤ e.fd → S e.fd))
    (hok : w.openListeningSockets es = (.ok, w')) : ∀ ls ∈ w'.listening, S ls.fd := by
  induction es generalizing w with
  | nil =>
    obtain rfl : w = w' := (Prod.ext_iff.mp hok).2
    exact hS
  | cons e es ih =>
    obtain ⟨ls, v, hone, hrest⟩ := openListeningSockets_cons hok
    obtain ⟨hb, hl, hfd⟩ := hes e (by simp)
    obtain ⟨hopened, hsame⟩ := h.openListeningSocket hone
    have hv : v.listening = w.listening := by
      unfold World.openListeningSocket at hone
      split_ifs at hone <;> cases hone <;> rfl
    refine ih hopened (fun a ha => ?_) (fun a ha => hes a (by simp [ha])) hrest
    rcases List.mem_append.mp ha with ha | ha
    · exact hS a (hv ▸ ha)
    · rw [List.mem_singleton.mp ha, (hsame hb hl).2]
      exact hfd (hsame hb hl).1

/-! ## The fresh table -/

lemma linkConnections_frame (n : ℕ) (next : Option ℕ) (w : World) :
    linkConnections n next w = { w with
      slots := (linkConnections n next w).slots
      freeConnections := (linkConnections n next w).freeConnections } := by
  induction n generalizing next w with
  | zero => rfl
  | succ n ih =>
    rw [linkConnections, ih]
    rfl

lemma linkConnections_chain (n : ℕ) {next : Option ℕ} {l : List ℕ}
    (h : Chain w.link next l) (hl : ∀ i ∈ l, n ≤ i) :
    Chain (linkConnections n next w).link (linkConnections n next w).freeConnections
      (List.range n ++ l) := by
  induction n generalizing next l w with
  | zero => exact h
  | succ n ih =>
    rw [linkConnections, List.range_succ, List.append_assoc]
    refine ih (h.push ?_ fun i hi => link_congr ?_) fun i hi => ?_
    · unfold link
      rw [conn_modConn, if_pos rfl]
      cases next <;> rfl
    · have hne : i ≠ n := by
        have := hl i hi
        omega
      rw [conn_modConn, if_neg hne]
    · rcases List.mem_cons.mp hi with rfl | hi
      · exact le_rfl
      · exact (Nat.le_succ n).trans (hl i hi)

lemma linkConnections_fd (n : ℕ) (next : Option ℕ) {i : ℕ}
    (h : i < n ∨ (w.slots i).conn.fd = -1) :
    ((linkConnections n next w).slots i).conn.fd = -1 := by
  induction n generalizing next w with
  | zero => exact h.resolve_left (Nat.not_lt_zero i)
  | succ n ih =>
    rw [linkConnections]
    refine ih _ ?_
    rw [conn_modConn]
    by_cases hi : i = n
    · exact .inr (by rw [if_pos hi])
    · rw [if_neg hi]
      exact h.imp_left fun hlt => by omega

lemma Table.fresh (hchain : Chain w.link w.freeConnections (List.range w.connectionN))
    (hcount : w.freeConnectionN = w.connectionN) (hsize : w.connectionN < 2^32)
    (hfd : ∀ i < w.connectionN, (w.slots i).conn.fd = -1) (hissued : w.issued = ∅)
    (hn : w.nevents = 0) (hr : w.masterRead = ∅) (hw : w.masterWrite = ∅) (hm : w.maxFd = -1)
    (hlive : w.livePools = ∅) : Table w (List.range w.connectionN) := by
  have hnone : ∀ i, ¬ w.InUse (List.range w.connectionN) i := fun i hi => by
    simp [InUse, hissued] at hi
  exact {
    chain := hchain
    nodup := List.nodup_range
    inTable := fun i hi => by simpa [hissued] using hi
    unissued := fun i hi _ => List.mem_range.mpr hi
    count := by rw [hcount, List.length_range]
    size := hsize
    freeFd := fun i hi => hfd i (List.mem_range.mp hi)
    released := fun i _ hi => by simp [hissued] at hi
    entry := fun i hi => absurd hi (hnone i)
    registry := .empty (fun e he => absurd he (hnone e.slot)) hn hr hw hm
    fds := fun i _ hi => absurd hi (hnone i)
    pools := fun i _ hi => absurd hi (hnone i)
    poolsLt := fun p hp => by simp [hlive] at hp }

/-! ## The listening connections -/

/-- The state while the listening entries `rest` still wait for their connections. `S` holds
of all descriptors seen so far. -/
structure Registering (S : ℤ → Prop) (rest : List Listening) (w : World) (free : List ℕ) :
    Prop where
  idle : Idle w free
  listeners : ∀ i ∈ w.issued, i ∉ free ∧ (w.slots i).read.accepted = true
  waiting : ∀ ls ∈ rest, ls.fd = -1 ∨ 0 ≤ ls.fd ∧ ls.fd ∈ w.openFds
  apart : ∀ i ∈ w.issued, ∀ ls ∈ rest, ls.fd ≠ -1 → (w.slots i).conn.fd ≠ ls.fd
  distinct : rest.Pairwise fun a b => a.fd = b.fd → a.fd = -1
  holdsRest : ∀ ls ∈ rest, S ls.fd
  holdsIssued : ∀ i ∈ w.issued, S (w.slots i).conn.fd
  holdsArgs : ∀ s ∈ w.fdArgs, S s

/-- A listening connection before its read event is entered. -/
def listen (k : ℕ) (s : Slot) : Slot :=
  { s with
    conn := { s.conn with listening := some k }
    read := { s.read with accepted := true, handler := some .eventAccept } }

lemma registerListening_eq {i : ℕ} (ht : Table w (i :: free)) (k : ℕ) (ls : Listening)
    (rest : List Listening) : ∃ next L, Chain w.link next free ∧
      registerListening k (ls :: rest) w = registerListening (k + 1) rest
        { ((w.handOut i next ls.fd).modSlot i (listen k)).entered (.read i) .read with
          listening := L } := by
  obtain ⟨next, hget, hchain⟩ := ht.getConnection_cons ls.fd
  set v := w.handOut i next ls.fd with hv
  let L := v.listening.modify k fun l => { l with connection := some i }
  have hu : World.modEvent { v.modConn i fun c => { c with listening := some k } with
      listening := L } (.read i) (fun e =>
        { e with accepted := true, handler := some .eventAccept }) =
      { v.modSlot i (listen k) with listening := L } := by
    refine World.ext (funext fun j => ?_) rfl rfl rfl rfl rfl rfl rfl rfl rfl rfl rfl rfl rfl rfl
      rfl rfl rfl
    by_cases hj : j = i
    · subst hj
      simp [modEvent, modConn, modSlot, Ev.slot, listen]
    · simp [modEvent, modConn, modSlot, Ev.slot, hj]
  have hidx : (World.event { v.modSlot i (listen k) with listening := L } (.read i)).index =
      none := by
    show ((v.modSlot i (listen k)).slots i).read.index = none
    rw [slots_modSlot, if_pos rfl, hv, handOut_self]
    rfl
  refine ⟨next, L, hchain, ?_⟩
  simp only [registerListening, hget, bind, Except.bind]
  erw [hu, selectAddEvent_eq .read hidx]
  rfl

lemma registerListening_cons {k : ℕ} {ls : Listening} {rest : List Listening}
    (ht : Table w free) (hok : registerListening k (ls :: rest) w = .ok (.ok, w')) :
    ∃ i free' next L, free = i :: free' ∧ Chain w.link next free' ∧
      registerListening (k + 1) rest
        { ((w.handOut i next ls.fd).modSlot i (listen k)).entered (.read i) .read with
          listening := L } = .ok (.ok, w') := by
  cases free with
  | nil =>
    simp only [registerListening, ht.getConnection_nil] at hok
    cases hok
  | cons i free' =>
    obtain ⟨next, L, hchain, heq⟩ := registerListening_eq ht k ls rest
    exact ⟨i, free', next, L, rfl, hchain, heq ▸ hok⟩

/-- A slot as start-up leaves it for a listening entry. -/
def listeningSlot (s : ℤ) (k n : ℕ) : Slot :=
  { listen k (freshSlot s) with read := enter n (listen k (freshSlot s)).read }

lemma Table.setListening (h : Table w free) (L : List Listening) :
    Table { w with listening := L } free :=
  h.of_registry ⟨rfl, rfl, rfl, rfl⟩ rfl rfl rfl rfl
    (h.registry.congr (fun e _ =>
    congrArg Event.index (@event_congr w { w with listening := L } rfl e))
      (fun _ _ => rfl) rfl rfl rfl rfl rfl)

lemma slots_listened {i k : ℕ} {next : Option ℕ} {s : ℤ} (j : ℕ) :
    (((w.handOut i next s).modSlot i (listen k)).entered (.read i) .read).slots j =
      if j = i then listeningSlot s k w.nevents else w.slots j := by
  rw [slots_entered_read, slots_modSlot, slots_modSlot, if_pos rfl, handOut_self]
  by_cases hj : j = i
  · rw [if_pos hj, if_pos hj]
    rfl
  · rw [if_neg hj, if_neg hj, if_neg hj, handOut_of_ne hj]

lemma Table.listened {i k : ℕ} {next : Option ℕ} {s : ℤ}
    (h : Table (w.handOut i next s) free) (hi : i ∉ free) (L : List Listening) :
    Table { ((w.handOut i next s).modSlot i (listen k)).entered (.read i) .read with
      listening := L } free := by
  have huse : (w.handOut i next s).InUse free i := ⟨Finset.mem_insert_self _ _, hi⟩
  have hentry := h.entry i huse
  refine Table.setListening (h.establish huse (by rw [handOut_self]; rfl) rfl
    (by rw [handOut_self]; rfl) (by rw [handOut_self]; rfl) ?_) L
  exact {
    alive := hentry.alive
    readDir := hentry.readDir
    writeDir := hentry.writeDir
    writeActive := hentry.writeActive
    writeIndex := hentry.writeIndex
    fd := hentry.fd
    pools := hentry.pools
    nodup := hentry.nodup
    idle := fun hl => by cases hl
    listener := fun _ => ⟨rfl, fun hn => by cases hn⟩
    peer := fun ha => by cases ha }

lemma Registering.next {S : ℤ → Prop} {ls : Listening} {rest : List Listening} {i k : ℕ}
    {next : Option ℕ} (h : Registering S (ls :: rest) w (i :: free))
    (hchain : Chain w.link next free) (L : List Listening) :
    Registering S rest
      { ((w.handOut i next ls.fd).modSlot i (listen k)).entered (.read i) .read with
        listening := L } free := by
  obtain ⟨hi, -⟩ := List.nodup_cons.mp h.idle.table.nodup
  have hls : ls ∈ ls :: rest := by simp
  have htable : Table (w.handOut i next ls.fd) free :=
    h.idle.table.handOut hchain (h.waiting ls hls) fun hne j hj => h.apart j hj.1 ls hls hne
  have hnotFree : ∀ j ∈ w.issued, j ≠ i := fun j hj hji =>
    (h.listeners j hj).1 (by simp [hji])
  have hworld : ∀ j, ({ ((w.handOut i next ls.fd).modSlot i (listen k)).entered (.read i) .read with
      listening := L } : World).slots j = if j = i then listeningSlot ls.fd k w.nevents
        else w.slots j := slots_listened
  have hfinal := htable.listened (k := k) hi L
  set u : World := { ((w.handOut i next ls.fd).modSlot i (listen k)).entered (.read i) .read with
    listening := L }
  have hself : u.slots i = listeningSlot ls.fd k w.nevents := by rw [hworld, if_pos rfl]
  have hother : ∀ j ∈ w.issued, u.slots j = w.slots j := fun j hj => by
    rw [hworld, if_neg (hnotFree j hj)]
  have hissued : ∀ j, j ∈ u.issued ↔ j = i ∨ j ∈ w.issued := fun j => Finset.mem_insert
  obtain ⟨hfirst, hrest⟩ := List.pairwise_cons.mp h.distinct
  refine ⟨⟨hfinal, h.idle.noAccepts, h.idle.noOthers, fun e he => ?_⟩,
    fun j hj => ?_, fun a ha => h.waiting a (by simp [ha]), fun j hj a ha hne => ?_, hrest,
    fun a ha => h.holdsRest a (by simp [ha]), fun j hj => ?_, fun s hs => ?_⟩
  · rcases (hissued e.slot).mp he with hei | he'
    · have hs := hself
      rw [← hei] at hs
      cases e with
      | read j => exact congrArg (fun s => s.read.posted) hs
      | write j => exact congrArg (fun s => s.write.posted) hs
    · have hp : (u.event e).posted = (w.event e).posted :=
        posted_congr (by rw [hother e.slot he']) (by rw [hother e.slot he'])
      rw [hp]
      exact h.idle.posted e he'
  · rcases (hissued j).mp hj with rfl | hj
    · exact ⟨hi, by rw [hself]; rfl⟩
    · rw [hother j hj]
      exact ⟨fun hf => (h.listeners j hj).1 (by simp [hf]), (h.listeners j hj).2⟩
  · rcases (hissued j).mp hj with rfl | hj
    · rw [hself]
      intro hfd
      exact hne (hfd ▸ hfirst a ha hfd)
    · rw [hother j hj]
      exact h.apart j hj a (by simp [ha]) hne
  · rcases (hissued j).mp hj with rfl | hj
    · rw [hself]
      exact h.holdsRest ls hls
    · rw [hother j hj]
      exact h.holdsIssued j hj
  · rcases Finset.mem_insert.mp hs with rfl | hs
    · have hfd : ((w.handOut i next ls.fd).modSlot i (listen k)).fd (.read i) = ls.fd := by
        show (((w.handOut i next ls.fd).modSlot i (listen k)).slots i).conn.fd = _
        rw [slots_modSlot, if_pos rfl, handOut_self]
        rfl
      rw [hfd]
      exact h.holdsRest ls hls
    · exact h.holdsArgs s hs

/-- The loop over the listening entries, when it succeeds. -/
theorem Registering.run {S : ℤ → Prop} {rest : List Listening} {k : ℕ}
    (h : Registering S rest w free) (hok : registerListening k rest w = .ok (.ok, w')) :
    (∃ free', Registering S [] w' free') ∧ w'.boundFds = w.boundFds ∧
      w'.openFds = w.openFds := by
  induction rest generalizing w free k with
  | nil =>
    obtain rfl : w = w' := (Prod.ext_iff.mp (Except.ok.inj hok)).2
    exact ⟨⟨free, h⟩, rfl, rfl⟩
  | cons ls rest ih =>
    obtain ⟨i, free', next, L, rfl, hchain, hrest⟩ := registerListening_cons h.idle.table hok
    obtain ⟨hend, hbound, hopen⟩ := ih (h.next hchain L) hrest
    exact ⟨hend, hbound, hopen⟩

lemma Registering.completes {S : ℤ → Prop} {rest : List Listening} (h : Registering S rest w free)
    (hlen : rest.length ≤ free.length) (k : ℕ) :
    ∃ w', registerListening k rest w = .ok (.ok, w') := by
  induction rest generalizing w free k with
  | nil => exact ⟨w, rfl⟩
  | cons ls rest ih =>
    cases free with
    | nil => simp at hlen
    | cons i free =>
      obtain ⟨next, L, hchain, heq⟩ := registerListening_eq h.idle.table k ls rest
      rw [heq]
      exact ih (h.next hchain L) (by simpa using hlen) (k + 1)

lemma Registering.overflows {S : ℤ → Prop} {rest : List Listening} (h : Registering S rest w free)
    (hlen : free.length < rest.length) (k : ℕ) :
    ∃ w', registerListening k rest w = .ok (.err, w') ∧ w'.openFds = w.openFds := by
  induction rest generalizing w free k with
  | nil => simp at hlen
  | cons ls rest ih =>
    cases free with
    | nil =>
      refine ⟨w, ?_, rfl⟩
      simp only [registerListening, h.idle.table.getConnection_nil]
      rfl
    | cons i free =>
      obtain ⟨next, L, hchain, heq⟩ := registerListening_eq h.idle.table k ls rest
      rw [heq]
      exact ih (h.next hchain L) (by simpa using hlen) (k + 1)

/-- The state from which a successful start-up registers its listening entries. -/
structure Ready (boot : Boot) (w : World) : Prop where
  idle : Idle w (List.range w.connectionN)
  issued : w.issued = ∅
  fdArgs : w.fdArgs = ∅
  connectionN : w.connectionN = boot.connectionN

lemma initTables_eq (boot : Boot) (u : World) :
    ∃ f head, World.initTables boot u = { u with
      slots := f
      freeConnections := head
      freeConnectionN := boot.connectionN } ∧
      Chain (World.initTables boot u).link head (List.range boot.connectionN) ∧
      ∀ i < boot.connectionN, (f i).conn.fd = -1 := by
  set u' : World := { u with slots := markClosed boot.connectionN boot.memory }
  have hframe := linkConnections_frame boot.connectionN none u'
  have hchain := @linkConnections_chain u' boot.connectionN none [] Chain.nil
    (fun i hi => absurd hi List.not_mem_nil)
  rw [List.append_nil] at hchain
  refine ⟨(linkConnections boot.connectionN none u').slots, _, ?_,
    hchain.congr fun i _ => link_congr rfl, fun i hi =>
      linkConnections_fd boot.connectionN none (.inl hi)⟩
  exact congrArg (fun v : World => { v with freeConnectionN := boot.connectionN }) hframe

lemma Ready.initTables {boot : Boot} {u : World} (hsize : boot.connectionN < 2^32)
    (hN : u.connectionN = boot.connectionN) (hissued : u.issued = ∅) (hn : u.nevents = 0)
    (hr : u.masterRead = ∅) (hw : u.masterWrite = ∅) (hm : u.maxFd = -1)
    (hlive : u.livePools = ∅) (hA : u.postedAcceptEvents = []) (hP : u.postedEvents = [])
    (hargs : u.fdArgs = ∅) : Ready boot (World.initTables boot u) := by
  obtain ⟨f, head, hv, hchain, hfd⟩ := initTables_eq boot u
  rw [hv] at hchain ⊢
  rw [← hN] at hchain
  refine ⟨⟨Table.fresh hchain hN.symm (hN ▸ hsize) (fun i hi => hfd i (hN ▸ hi)) hissued hn hr hw
    hm hlive, hA, hP, fun e he => ?_⟩, hissued, hargs, hN⟩
  exact absurd (hissued ▸ he) (Finset.notMem_empty _)

end World

open World

variable {boot : Boot} {w : World}

/-- The stages of a successful start-up: the sockets are opened, the tables are built, and the
listening entries get their connections. -/
lemma Started.registers (h : Started boot w) :
    ∃ u v, (blank boot).openListeningSockets boot.entries = (.ok, u) ∧ Ready boot v ∧
      v.listening = u.listening ∧ v.openFds = u.openFds ∧ v.boundFds = u.boundFds ∧
      v.livePools = ∅ ∧ registerListening 0 v.listening v = .ok (.ok, w) := by
  have hok := h.success
  unfold postConfiguration at hok
  cases hsock : (blank boot).openListeningSockets boot.entries with
  | mk rc u =>
    rw [hsock] at hok
    cases rc with
    | ok =>
      have hopened := (Opened.blank boot).openListeningSockets hsock
      have hn : u.nevents = 0 := by rw [hopened.frame]; rfl
      simp only [eventInitConnections, selectInit, hn, ne_eq, not_true, if_false] at hok
      cases harr : boot.eventIndex with
      | none =>
        rw [harr] at hok
        cases hok
      | some arr =>
        rw [harr] at hok
        let u' : World := { u with
          masterRead := ∅, masterWrite := ∅, nevents := 0, eventIndex := arr, maxFd := -1 }
        obtain ⟨f, head, hv, -⟩ := initTables_eq boot u'
        change (if boot.connections = false ∨ boot.readEvents = false ∨ boot.writeEvents = false
          then _ else if (initTables boot u').listening = [] then Except.error Fault.assertion
            else registerListening 0 (initTables boot u').listening (initTables boot u')) =
              Except.ok (Rc.ok, w) at hok
        split_ifs at hok with hmem hls
        · cases hok
        · have hlive : u.livePools = ∅ := (congrArg World.livePools hopened.frame :)
          refine ⟨u, initTables boot u', rfl,
            .initTables h.size.2 ?_ ?_ rfl rfl rfl rfl hlive ?_ ?_ ?_,
            by rw [hv], by rw [hv], by rw [hv], by rw [hv]; exact hlive, hok⟩
          · exact (congrArg World.connectionN hopened.frame :)
          · exact (congrArg World.issued hopened.frame :)
          · exact (congrArg World.postedAcceptEvents hopened.frame :)
          · exact (congrArg World.postedEvents hopened.frame :)
          · exact (congrArg World.fdArgs hopened.frame :)
    | err => cases hok
    | again => cases hok

lemma World.Ready.registering {S : ℤ → Prop} {u v : World} (h : Ready boot v)
    (hopened : Opened boot u) (hls : v.listening = u.listening) (hopen : v.openFds = u.openFds)
    (hS : ∀ ls ∈ u.listening, S ls.fd) :
    Registering S v.listening v (List.range v.connectionN) := by
  have hissued : ∀ {i}, i ∉ v.issued := fun {i} hi =>
    absurd (h.issued ▸ hi) (Finset.notMem_empty i)
  exact {
    idle := h.idle
    listeners := fun i hi => absurd hi hissued
    waiting := fun ls hl => (hopened.fds ls (hls ▸ hl)).imp_right fun hf => ⟨hf.1, hopen ▸ hf.2.1⟩
    apart := fun i hi => absurd hi hissued
    distinct := hls ▸ hopened.distinct
    holdsRest := fun ls hl => hS ls (hls ▸ hl)
    holdsIssued := fun i hi => absurd hi hissued
    holdsArgs := fun s hs => absurd (h.fdArgs ▸ hs) (Finset.notMem_empty s) }

/-- A successful start-up leaves the listening connections and an idle loop. -/
theorem Started.registering {S : ℤ → Prop} (h : Started boot w)
    (hS : ∀ u, (blank boot).openListeningSockets boot.entries = (.ok, u) →
      ∀ ls ∈ u.listening, S ls.fd) :
    ∃ u free, (blank boot).openListeningSockets boot.entries = (.ok, u) ∧
      w.boundFds = u.boundFds ∧ Registering S [] w free := by
  obtain ⟨u, v, hsock, hready, hls, hopen, hbound, -, hrun⟩ := h.registers
  have hopened := (Opened.blank boot).openListeningSockets hsock
  obtain ⟨⟨free, hend⟩, hbound', -⟩ :=
    (hready.registering hopened hls hopen (hS u hsock)).run hrun
  exact ⟨u, free, hsock, hbound'.trans hbound, hend⟩

end Xdbd
