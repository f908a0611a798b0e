import Xdbd.Resources

/-!
# The program

`main` of the daemon: its one listening entry, the start-up with all that can fail in it, and the
worker loop. What the loop reaches is a run, so that what holds of runs holds of the program.
-/
namespace Xdbd
open World

/-! ## The listening entry -/

def afInet : ℕ := 2

def sockStream : ℕ := 1

def inaddrAny : UInt32 := 0

def adbConnectionDefaultPort : UInt16 := 5555

def defaultConnections : ℕ := 512

/-- The bytes of a port in network order. -/
def htons (port : UInt16) : UInt8 × UInt8 := ((port >>> 8).toUInt8, port.toUInt8)

/-- `struct sockaddr_in`, without its padding. -/
structure SockaddrIn where
  sinFamily : ℕ
  sinPort : UInt8 × UInt8
  sinAddr : UInt32
  deriving DecidableEq, Repr

def sizeofSockaddrIn : ℕ := 16

/-- `xdbd_listening_t` as `xdbd_open_listening_sockets` finds it. -/
structure ListenConf where
  fd : ℤ
  type : ℕ
  sockaddr : SockaddrIn
  socklen : ℕ
  backlog : ℕ
  deriving DecidableEq, Repr

/-- What the allocator and the kernel will answer to the daemon when it starts. -/
structure Environment where
  pool : Bool
  xdbd : Bool
  sin : Bool
  entry : Bool
  sockaddr : Bool
  socket : ℕ → ℕ → ℤ
  nonblocking : ℤ → Bool
  bind : ℤ → SockaddrIn → ℕ → Bool
  listen : ℤ → ℕ → Bool
  eventIndex : Option (ℕ → Ev)
  connections : Bool
  readEvents : Bool
  writeEvents : Bool
  openFds : Finset ℤ
  memory : ℕ → Slot

namespace Environment

/-- `xdbd_create_listening`. An entry is pushed also if there is no memory for its address. -/
def createListening (env : Environment) (listening : List ListenConf) (sockaddr : SockaddrIn)
    (socklen : ℕ) : Rc × List ListenConf :=
  if env.entry = false then (.err, listening)
  else if env.sockaddr = false then (.err, listening ++ [⟨0, 0, ⟨0, (0, 0), 0⟩, 0, 0⟩])
  else (.ok, listening ++ [⟨-1, sockStream, sockaddr, socklen, 0⟩])

def pushAdbDefaultListen (env : Environment) (listening : List ListenConf) :
    Rc × List ListenConf :=
  if env.sin = false then (.err, listening)
  else env.createListening listening ⟨afInet, htons adbConnectionDefaultPort, inaddrAny⟩
    sizeofSockaddrIn

def parseListenConf (env : Environment) : Rc × List ListenConf := env.pushAdbDefaultListen []

/-- The answers to the system calls for an entry. -/
def answer (env : Environment) (ls : ListenConf) : SocketResult :=
  let s := env.socket ls.sockaddr.sinFamily ls.type
  ⟨s, env.nonblocking s, env.bind s ls.sockaddr ls.socklen, env.listen s ls.backlog⟩

def bootOf (env : Environment) (connectionN : ℕ) (listening : List ListenConf) : Boot where
  connectionN := connectionN
  entries := listening.map env.answer
  eventIndex := env.eventIndex
  connections := env.connections
  readEvents := env.readEvents
  writeEvents := env.writeEvents
  openFds := env.openFds
  memory := env.memory

/-- `xdbd_event_configration`: the size of the table and the listening entries. -/
def eventConfigration (env : Environment) : Rc × ℕ × List ListenConf :=
  match env.parseListenConf with
  | (.ok, listening) => (.ok, defaultConnections, listening)
  | (_, listening) => (.err, defaultConnections, listening)

def initEvent (env : Environment) : Except Fault (Rc × World) :=
  match env.eventConfigration with
  | (.ok, connectionN, listening) => postConfiguration (env.bootOf connectionN listening)
  | (_, connectionN, listening) => .ok (.err, blank (env.bootOf connectionN listening))

end Environment

/-! ## The program -/

/-- What the process has: the pool of the daemon, and the rest. -/
structure Process where
  pool : Bool
  world : World

/-- How `main` goes on: it returns a code, or the worker loop turns for ever. -/
inductive Status
  | exited (rc : Rc)
  | working
  deriving DecidableEq, Repr

namespace Environment

/-- `xdbd_init`; it returns no daemon if `.err`. -/
def init (env : Environment) : Except Fault (Rc × Process) :=
  if env.pool = false then .ok (.err, ⟨false, blank (env.bootOf 0 [])⟩)
  else if env.xdbd = false then .ok (.err, ⟨false, blank (env.bootOf 0 [])⟩)
  else do
    let (rc, w) ← env.initEvent
    match rc with
    | .ok => return (.ok, ⟨true, w⟩)
    | _ => return (.err, ⟨false, w⟩)

def getOptions : Rc := .ok

def main (env : Environment) : Except Fault (Status × Process) :=
  match getOptions with
  | .ok => do
    let (rc, p) ← env.init
    match rc with
    | .ok => return (.working, p)
    | _ => return (.exited .err, p)
  | _ => .ok (.exited .err, ⟨false, blank (env.bootOf 0 [])⟩)

end Environment

/-! ## The start-up -/

variable {boot : Boot} {env : Environment} {u v w w' : World}

/-- There is memory for the tables. -/
structure Boot.Supplied (boot : Boot) : Prop where
  eventIndex : boot.eventIndex ≠ none
  connections : boot.connections = true
  readEvents : boot.readEvents = true
  writeEvents : boot.writeEvents = true

lemma eventInitConnections_denied (h : World.Opened boot u) (hn : ¬ boot.Supplied) :
    ∃ w, eventInitConnections boot u = .ok (.err, w) ∧ w.openFds = u.openFds := by
  have hnevents : u.nevents = 0 := by rw [h.frame]; rfl
  simp only [eventInitConnections, selectInit, hnevents, ne_eq, not_true, if_false]
  cases harr : boot.eventIndex with
  | none => exact ⟨_, rfl, rfl⟩
  | some arr =>
    have hmem : boot.connections = false ∨ boot.readEvents = false ∨ boot.writeEvents = false := by
      by_contra hall
      simp only [not_or, Bool.not_eq_false] at hall
      exact hn ⟨by simp [harr], hall.1, hall.2.1, hall.2.2⟩
    refine ⟨_, if_pos hmem, rfl⟩

lemma eventInitConnections_supplied (h : World.Opened boot u) (hsize : boot.connectionN < 2^32)
    (hs : boot.Supplied) (hne : u.listening ≠ []) :
    ∃ v, Ready boot v ∧ v.listening = u.listening ∧ v.openFds = u.openFds ∧
      eventInitConnections boot u = registerListening 0 v.listening v := by
  have hnevents : u.nevents = 0 := by rw [h.frame]; rfl
  obtain ⟨arr, harr⟩ := Option.ne_none_iff_exists'.mp hs.eventIndex
  let u' : World := { u with
    masterRead := ∅, masterWrite := ∅, nevents := 0, eventIndex := arr, maxFd := -1 }
  obtain ⟨f, head, hv, -⟩ := initTables_eq boot u'
  refine ⟨initTables boot u', .initTables hsize ?_ ?_ rfl rfl rfl rfl ?_ ?_ ?_ ?_, by rw [hv],
    by rw [hv], ?_⟩
  · exact (congrArg World.connectionN h.frame :)
  · exact (congrArg World.issued h.frame :)
  · exact (congrArg World.livePools h.frame :)
  · exact (congrArg World.postedAcceptEvents h.frame :)
  · exact (congrArg World.postedEvents h.frame :)
  · exact (congrArg World.fdArgs h.frame :)
  · have hmem : ¬ (boot.connections = false ∨ boot.readEvents = false ∨
        boot.writeEvents = false) := by
      simp [hs.connections, hs.readEvents, hs.writeEvents]
    have hlisten : (initTables boot u').listening ≠ [] := by
      rw [hv]
      exact hne
    simp only [eventInitConnections, selectInit, hnevents, ne_eq, not_true, if_false, harr]
    change (if boot.connections = false ∨ boot.readEvents = false ∨ boot.writeEvents = false
      then _ else if (initTables boot u').listening = [] then Except.error Fault.assertion
        else registerListening 0 (initTables boot u').listening (initTables boot u')) = _
    rw [if_neg hmem, if_neg hlisten]

lemma eventInitConnections_total (h : World.Opened boot u) (hsize : boot.connectionN < 2^32)
    (hne : u.listening ≠ []) : ∃ rc w, eventInitConnections boot u = .ok (rc, w) ∧
      w.openFds = u.openFds ∧
        (rc = .ok ∧ boot.Supplied ∧ u.listening.length ≤ boot.connectionN ∨
          rc = .err ∧ ¬ (boot.Supplied ∧ u.listening.length ≤ boot.connectionN)) := by
  by_cases hs : boot.Supplied
  · obtain ⟨v, hready, hls, hopen, heq⟩ := eventInitConnections_supplied h hsize hs hne
    have hreg := hready.registering (S := fun _ => True) h hls hopen fun _ _ => trivial
    have hfree : (List.range v.connectionN).length = boot.connectionN := by
      rw [List.length_range, hready.connectionN]
    by_cases hlen : u.listening.length ≤ boot.connectionN
    · obtain ⟨w, hw⟩ := hreg.completes (by rw [hfree, hls]; exact hlen) 0
      exact ⟨.ok, w, heq.trans hw, (hreg.run hw).2.2.trans hopen, .inl ⟨rfl, hs, hlen⟩⟩
    · obtain ⟨w, hw, hfds⟩ := hreg.overflows (by rw [hfree, hls]; omega) 0
      exact ⟨.err, w, heq.trans hw, hfds.trans hopen, .inr ⟨rfl, fun hn => hlen hn.2⟩⟩
  · obtain ⟨w, hw, hfds⟩ := eventInitConnections_denied h hs
    exact ⟨.err, w, hw, hfds, .inr ⟨rfl, fun hn => hs hn.1⟩⟩

/-- `socket` and `fcntl` succeed for each entry, with new descriptors. -/
def Opens : Finset ℤ → List SocketResult → Prop
  | _, [] => True
  | s, e :: es => 0 ≤ e.fd ∧ e.fd ∉ s ∧ e.nonblocking = true ∧ Opens (insert e.fd s) es

lemma openListeningSockets_total (es : List SocketResult) (w : World) :
    ∃ rc w', w.openListeningSockets es = (rc, w') ∧
      (rc = .ok ∧ Opens w.openFds es ∨ rc = .err ∧ ¬ Opens w.openFds es) := by
  induction es generalizing w with
  | nil => exact ⟨.ok, w, rfl, .inl ⟨rfl, trivial⟩⟩
  | cons e es ih =>
    simp only [World.openListeningSockets, World.openListeningSocket]
    by_cases hbad : e.fd < 0 ∨ e.fd ∈ w.openFds
    · rw [if_pos hbad]
      refine ⟨.err, _, rfl, .inr ⟨rfl, fun hn => ?_⟩⟩
      rcases hbad with hneg | hopen
      · exact absurd hn.1 (not_le.mpr hneg)
      · exact hn.2.1 hopen
    · rw [if_neg hbad]
      obtain ⟨hpos, hnew⟩ := not_or.mp hbad
      by_cases hnb : e.nonblocking = false
      · rw [if_pos hnb]
        exact ⟨.err, _, rfl, .inr ⟨rfl, fun hn => by simp [hn.2.2.1] at hnb⟩⟩
      · rw [if_neg hnb]
        have hiff : ∀ rc : Rc, (rc = .ok ∧ Opens (insert e.fd w.openFds) es ∨
            rc = .err ∧ ¬ Opens (insert e.fd w.openFds) es) →
              (rc = .ok ∧ Opens w.openFds (e :: es) ∨ rc = .err ∧ ¬ Opens w.openFds (e :: es)) :=
          fun rc => Or.imp
            (And.imp_right fun ho => ⟨not_lt.mp hpos, hnew, Bool.not_eq_false _ |>.mp hnb, ho⟩)
            (And.imp_right fun ho hn => ho hn.2.2.2)
        split_ifs
        all_goals
          obtain ⟨rc, w', hw, hrc⟩ := ih { w with
            openFds := insert e.fd w.openFds, listening := _, boundFds := _ }
          exact ⟨rc, w', hw, hiff rc hrc⟩

/-- The start-up comes to its end, and it succeeds if and only if the sockets open, there is memory,
and there are enough slots. -/
theorem postConfiguration_total (hsize : boot.connectionN < 2^32) (hne : boot.entries ≠ []) :
    ∃ rc w, postConfiguration boot = .ok (rc, w) ∧ (rc = .ok ∨ rc = .err) ∧
      (rc = .ok ↔ Opens boot.openFds boot.entries ∧ boot.Supplied ∧
        boot.entries.length ≤ boot.connectionN) := by
  obtain ⟨rc, u, hsock, hrc⟩ := openListeningSockets_total boot.entries (blank boot)
  unfold postConfiguration
  rw [hsock]
  rcases hrc with ⟨rfl, hopens⟩ | ⟨rfl, hopens⟩
  · have hlen : u.listening.length = boot.entries.length := by
      simpa [blank] using congrArg List.length (openListeningSockets_fds hsock).2.2
    obtain ⟨rc, w, hw, -, hrc⟩ := eventInitConnections_total
      ((World.Opened.blank boot).openListeningSockets hsock) hsize
      fun hn => hne (List.length_eq_zero_iff.mp (hlen ▸ congrArg List.length hn))
    rw [hlen] at hrc
    refine ⟨rc, w, hw, ?_⟩
    rcases hrc with ⟨rfl, hs⟩ | ⟨rfl, hs⟩
    · exact ⟨.inl rfl, iff_of_true rfl ⟨hopens, hs⟩⟩
    · exact ⟨.inr rfl, iff_of_false Rc.noConfusion fun hn => hs hn.2⟩
  · exact ⟨.err, u, rfl, .inr rfl, iff_of_false Rc.noConfusion fun hn => hopens hn.1⟩

/-! ## The listening sockets -/

/-- The daemon listens for ever: an entry whose socket was bound keeps its slot and its
registration, and `select` is asked about its descriptor. -/
theorem Run.listening (h : Run boot w) {e : SocketResult} (he : e ∈ boot.entries)
    (hbound : (e.bind && e.listen) = true) :
    ∃ l ∈ w.listeners, (w.slots l).conn.fd = e.fd ∧
      (w.slots l).read.handler = some .eventAccept ∧ .read l ∈ w.registered ∧
        e.fd ∈ w.masterRead := by
  obtain ⟨free, hidle⟩ := h.idle
  have hmem : e.fd ∈ w.sockets := by
    rw [h.accounted.sockets]
    exact List.mem_toFinset.mpr (List.mem_map.mpr ⟨e, he, if_pos hbound⟩)
  obtain ⟨l, hl, hfd⟩ := Finset.mem_image.mp hmem
  obtain ⟨hissued, hacc, -⟩ := mem_listeners.mp hl
  have huse : w.InUse free l := ⟨hissued, fun hf => hidle.table.notMem_listeners_free hf hl⟩
  obtain ⟨hhandler, hindex⟩ := (hidle.table.entry l huse).listener hacc
  have hreg : Ev.read l ∈ w.registered := hidle.table.registered_iff.mpr ⟨huse, hindex⟩
  exact ⟨l, hl, hfd, hhandler, hreg, (hidle.table.registry.masterRead _).mpr ⟨l, hreg, hfd⟩⟩

namespace Environment

/-- The listening entry of the daemon, on every address. -/
def listenConf : ListenConf :=
  ⟨-1, sockStream, ⟨afInet, htons adbConnectionDefaultPort, inaddrAny⟩, sizeofSockaddrIn, 0⟩

def adbBoot (env : Environment) : Boot := env.bootOf defaultConnections [listenConf]

structure Provides (env : Environment) : Prop where
  memory : (env.pool && env.xdbd) = true
  entry : (env.sin && (env.entry && env.sockaddr)) = true
  tables : env.adbBoot.Supplied
  socket : 0 ≤ (env.answer listenConf).fd ∧ (env.answer listenConf).fd ∉ env.openFds
  nonblocking : (env.answer listenConf).nonblocking = true

lemma eventConfigration_eq (env : Environment) :
    (env.sin && (env.entry && env.sockaddr)) = true ∧
        env.eventConfigration = (.ok, defaultConnections, [listenConf]) ∨
      (env.sin && (env.entry && env.sockaddr)) = false ∧
        ∃ l, env.eventConfigration = (.err, defaultConnections, l) := by
  unfold eventConfigration parseListenConf pushAdbDefaultListen createListening
  cases env.sin <;> cases env.entry <;> cases env.sockaddr <;> simp [listenConf]

lemma initEvent_total (env : Environment) : ∃ rc w, env.initEvent = .ok (rc, w) ∧
    (rc = .ok ∧ postConfiguration env.adbBoot = .ok (.ok, w) ∨ rc = .err) ∧
      (rc = .ok ↔ (env.sin && (env.entry && env.sockaddr)) = true ∧ env.adbBoot.Supplied ∧
        (0 ≤ (env.answer listenConf).fd ∧ (env.answer listenConf).fd ∉ env.openFds) ∧
          (env.answer listenConf).nonblocking = true) := by
  rcases env.eventConfigration_eq with ⟨hentry, heq⟩ | ⟨hentry, l, heq⟩
  · obtain ⟨rc, w, hw, hrc, hiff⟩ := @postConfiguration_total env.adbBoot
      (by norm_num [adbBoot, bootOf, defaultConnections]) (List.cons_ne_nil _ _)
    have hinit : env.initEvent = .ok (rc, w) := by
      unfold initEvent
      rw [heq]
      exact hw
    refine ⟨rc, w, hinit, hrc.imp_left ?_, hiff.trans ?_⟩
    · rintro rfl
      exact ⟨rfl, hw⟩
    · have hlen : env.adbBoot.entries.length ≤ env.adbBoot.connectionN := by
        norm_num [adbBoot, bootOf, defaultConnections]
      have hopens : Opens env.adbBoot.openFds env.adbBoot.entries ↔
          0 ≤ (env.answer listenConf).fd ∧ (env.answer listenConf).fd ∉ env.openFds ∧
            (env.answer listenConf).nonblocking = true ∧ True := Iff.rfl
      simp only [hopens, hentry, hlen, and_true, true_and]
      tauto
  · refine ⟨.err, blank (env.bootOf defaultConnections l), ?_, .inr rfl,
      iff_of_false Rc.noConfusion fun hn => by simp [hentry] at hn⟩
    unfold initEvent
    rw [heq]

/-- `main` reaches the worker loop exactly if it gets what it asks for, whatever `bind` and `listen`
return; else it gives the pool back and returns `XDBD_ERR`. -/
theorem main_total (env : Environment) : ∃ st p, env.main = .ok (st, p) ∧
    (st = .working ∧ p.pool = true ∧ postConfiguration env.adbBoot = .ok (.ok, p.world) ∨
      st = .exited .err ∧ p.pool = false) ∧ (st = .working ↔ env.Provides) := by
  obtain ⟨rc, w, hw, hrc, hiff⟩ := env.initEvent_total
  have hprovides : env.Provides ↔ (env.pool && env.xdbd) = true ∧
      (env.sin && (env.entry && env.sockaddr)) = true ∧ env.adbBoot.Supplied ∧
        (0 ≤ (env.answer listenConf).fd ∧ (env.answer listenConf).fd ∉ env.openFds) ∧
          (env.answer listenConf).nonblocking = true :=
    ⟨fun h => ⟨h.memory, h.entry, h.tables, h.socket, h.nonblocking⟩,
      fun ⟨h₁, h₂, h₃, h₄, h₅⟩ => ⟨h₁, h₂, h₃, h₄, h₅⟩⟩
  rw [← hiff] at hprovides
  unfold main init getOptions
  dsimp only
  cases hpool : env.pool with
  | false =>
    exact ⟨_, _, rfl, .inr ⟨rfl, rfl⟩, iff_of_false Status.noConfusion fun hn => by
      simpa [hpool] using hn.memory⟩
  | true =>
    cases hxdbd : env.xdbd with
    | false =>
      exact ⟨_, _, rfl, .inr ⟨rfl, rfl⟩, iff_of_false Status.noConfusion fun hn => by
        simpa [hxdbd] using hn.memory⟩
    | true =>
      rw [hw]
      rcases hrc with ⟨rfl, hpost⟩ | rfl
      · exact ⟨_, _, rfl, .inl ⟨rfl, rfl, hpost⟩, iff_of_true rfl
          (hprovides.mpr ⟨by simp [hpool, hxdbd], rfl⟩)⟩
      · exact ⟨_, _, rfl, .inr ⟨rfl, rfl⟩, iff_of_false Status.noConfusion fun hn =>
          Rc.noConfusion (hprovides.mp hn).2⟩

/-- The states at the top of the worker loop of `main`. -/
inductive Works (env : Environment) : World → Prop
  | enter {p : Process} (main : env.main = .ok (.working, p)) : Works env p.world
  | turn {w w' : World} (prior : Works env w) (next : Step w w') : Works env w'

/-- The worker loop of `main` goes through a run. -/
theorem Works.run (h : env.Works w) (hfds : ∀ s ∈ env.openFds, 0 ≤ s) : Run env.adbBoot w := by
  induction h with
  | @enter p hmain =>
    obtain ⟨st, p', hmain', hcase, -⟩ := env.main_total
    obtain ⟨rfl, rfl⟩ := Prod.mk.inj (Except.ok.inj (hmain'.symm.trans hmain))
    rcases hcase with ⟨-, -, hpost⟩ | ⟨hst, -⟩
    · exact .start ⟨by norm_num [adbBoot, bootOf, defaultConnections], hfds, hpost⟩
    · cases hst
  | turn prior next ih => exact ih.step next

end Environment

end Xdbd
