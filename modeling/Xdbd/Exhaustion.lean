import Xdbd.Conversation
import Xdbd.Resources

/-!
# Exhaustion

A connection on which reading is blocked never gives its slot back. Once every slot of the table is
in use so, no client is accepted or served again, and what is open stays open.
-/
namespace Xdbd
open Interaction Code World Components

variable {boot : Boot} {s t : Slot} {u v w w' : World} {free : List ℕ}

/-- The slot goes on with what it holds; of those that are taken nothing is heard any more. -/
structure Slot.Stays (s t : Slot) : Prop where
  conn : t.conn.pool = s.conn.pool ∧ t.conn.tempPool = s.conn.tempPool ∧ t.conn.fd = s.conn.fd ∧
    t.conn.listening = s.conn.listening ∧ t.conn.destroyed = s.conn.destroyed
  accepted : t.read.accepted = s.read.accepted
  handler : t.read.handler = s.read.handler
  history : s.wire.history <+: t.wire.history
  silent : s.read.accepted = false → t.wire.history = s.wire.history

lemma Slot.Stays.refl (s : Slot) : s.Stays s :=
  ⟨⟨rfl, rfl, rfl, rfl, rfl⟩, rfl, rfl, List.prefix_rfl, fun _ => rfl⟩

lemma Slot.Stays.trans {s t u : Slot} (h : s.Stays t) (h' : t.Stays u) : s.Stays u where
  conn := by
    obtain ⟨hp, hq, hf, hl, hd⟩ := h.conn
    obtain ⟨hp', hq', hf', hl', hd'⟩ := h'.conn
    exact ⟨hp'.trans hp, hq'.trans hq, hf'.trans hf, hl'.trans hl, hd'.trans hd⟩
  accepted := h'.accepted.trans h.accepted
  handler := h'.handler.trans h.handler
  history := h.history.trans h'.history
  silent ha := (h'.silent (h.accepted.trans ha)).trans (h.silent ha)

lemma Slot.Stays.delRead (s : Slot) : s.Stays s.delRead.2 := by
  unfold Slot.delRead
  split_ifs
  · exact .refl s
  · exact ⟨⟨rfl, rfl, rfl, rfl, rfl⟩, rfl, rfl, List.prefix_rfl, fun _ => rfl⟩

lemma SameButIndex.stays (h : SameButIndex s t) : s.Stays t where
  conn := by simp [h.conn]
  accepted := h.similar.accepted
  handler := by
    have hhandler := congrArg Event.handler h.read
    exact hhandler
  history := by rw [h.wire]
  silent _ := by rw [h.wire]

lemma run_adbBlockReading (s : Slot) : Prog.run Slot.exec adbBlockReading s =
    .ok ((), if s.read.active then s.delRead.2 else s) := by
  unfold adbBlockReading
  rw [Prog.run_bind_of_ok (show Prog.run Slot.exec readEvent s = .ok (_, s) from rfl)]
  dsimp only
  split_ifs
  · exact Prog.run_bind_of_ok (show Prog.run Slot.exec delReadEvent s = .ok s.delRead from rfl)
  · rfl

lemma Slot.stays_blocked {hd : AdbHandler} (hb : s.read.handler = some (.adb .adbBlockReading))
    (hhd : s.read.handler = some (.adb hd))
    (hrun : Prog.run Slot.exec (code hd) s.norm = .ok ((), t.norm)) : s.Stays t := by
  obtain rfl : hd = .adbBlockReading := by
    rw [hhd] at hb
    cases hb
    rfl
  have hend := (Prod.mk.inj (Except.ok.inj (hrun.symm.trans (run_adbBlockReading _)))).2
  have hstays : s.norm.Stays t.norm := by
    rw [hend]
    split_ifs
    · exact .delRead _
    · exact .refl _
  exact ⟨hstays.conn, hstays.accepted, hstays.handler, hstays.history, hstays.silent⟩

lemma stays_delete (w : World) (k i : ℕ) :
    (w.slots i).Stays ((w.deletePostedEvent (.read k)).slots i) := by
  rw [slots_deletePostedEvent]
  split_ifs with hi
  · rw [hi]
    exact ⟨⟨rfl, rfl, rfl, rfl, rfl⟩, rfl, rfl, List.prefix_rfl, fun _ => rfl⟩
  · exact .refl _

lemma stays_feed (w : World) (k : ℕ) (x : Script) (i : ℕ) :
    (w.slots i).Stays ((w.feed k x).slots i) := by
  rw [slots_feed]
  split_ifs with hi
  · rw [hi]
    exact ⟨⟨rfl, rfl, rfl, rfl, rfl⟩, rfl, rfl, List.prefix_rfl, fun _ => rfl⟩
  · exact .refl _

/-- From `w` to `w'` no slot was handed out or given back. -/
structure Lasting (w w' : World) : Prop where
  connectionN : w'.connectionN = w.connectionN
  issued : w'.issued = w.issued
  slots : ∀ i, (w.slots i).Stays (w'.slots i)

namespace Lasting

lemma refl (w : World) : Lasting w w := ⟨rfl, rfl, fun _ => .refl _⟩

lemma trans (h : Lasting u v) (h' : Lasting v w) : Lasting u w :=
  ⟨h'.connectionN.trans h.connectionN, h'.issued.trans h.issued,
    fun i => (h.slots i).trans (h'.slots i)⟩

lemma taken (h : Lasting w w') : w'.taken = w.taken := by
  ext i
  rw [mem_taken, mem_taken, h.issued, (h.slots i).accepted, (h.slots i).conn.2.2.2.2]

lemma connected (h : Lasting w w') : w'.connected = w.connected := by
  unfold World.connected
  rw [h.taken]
  exact Finset.filter_congr fun i _ => by rw [(h.slots i).conn.2.2.2.1]

lemma listeners (h : Lasting w w') : w'.listeners = w.listeners := by
  ext i
  rw [mem_listeners, mem_listeners, h.issued, (h.slots i).accepted, (h.slots i).conn.2.2.2.2]

lemma delete (h : Lasting w w') (k : ℕ) : Lasting w (w'.deletePostedEvent (.read k)) :=
  h.trans ⟨rfl, rfl, stays_delete w' k⟩

end Lasting

lemma World.Idle.lasting_select (h : Idle w free) {kernel : Kernel} (hk : Allowed w kernel) :
    Lasting w (w.selectProcessEvents kernel).2 := by
  have hN := (h.select_sizes hk).2
  have hsel := h.selected hk
  generalize (w.selectProcessEvents kernel).2 = v at hsel hN
  cases hsel with
  | failed _ hslots hissued _ _ => exact ⟨hN, hissued, fun i => by rw [hslots]; exact .refl _⟩
  | @ready n readSet writeSet _ _ =>
    refine ⟨hN, w.issued_refreshMaxFd, fun i => ?_⟩
    rw [slots_scanned, w.slots_refreshMaxFd]
    exact ⟨⟨rfl, rfl, rfl, rfl, rfl⟩, by dsimp only; split_ifs <;> rfl,
      by dsimp only; split_ifs <;> rfl, List.prefix_rfl, fun _ => rfl⟩

/-! ## One blocked connection -/

/-- A blocked connection keeps its slot and what it holds, whatever the other clients do. -/
lemma stays_connected {i : ℕ} (hi : i ∈ w.connected)
    (hb : (w.slots i).read.handler = some (.adb .adbBlockReading)) :
    StepInvariant fun v => i ∈ v.issued ∧ (w.slots i).Stays (v.slots i) := by
  obtain ⟨-, hacc, halive⟩ := mem_taken.mp (Finset.mem_filter.mp hi).1
  refine { accept := ?_, handler := ?_, feed := ?_, select := ?_ }
  · rintro u v free free' l ⟨hissued, hs⟩ hbatch hl ha
    have hil : i ≠ l := by
      obtain ⟨_, he, -, hlacc⟩ := hbatch.accepts _ hl
      obtain rfl := Ev.read.inj he
      rintro rfl
      rw [hs.accepted, hacc] at hlacc
      cases hlacc
    have hfree : i ∉ free := fun hf => by
      have hdead := hbatch.table.released i hf hissued
      rw [hs.conn.2.2.2.2, halive] at hdead
      cases hdead
    have hsame := ha.others i hil fun hf => absurd hf hfree
    refine ⟨(ha.issued i).mpr (.inl hissued), ?_⟩
    exact (hsame ▸ hs : (w.slots i).Stays (v.slots i)).trans (stays_delete v l i)
  · rintro u v free j hd ⟨hissued, hs⟩ hbatch hj hhd hframe hrun
    refine ⟨hframe.issued ▸ hissued, ?_⟩
    refine (hs.trans ?_).trans (stays_delete v j i)
    by_cases hij : i = j
    · rw [hij] at hs hb ⊢
      exact Slot.stays_blocked (hs.handler.trans hb) hhd hrun
    · exact (hframe.others i hij).stays
  · exact fun {u} k x hu => ⟨hu.1, hu.2.trans (stays_feed u k x i)⟩
  · rintro u free kernel ⟨hissued, hs⟩ hidle hk
    have hlast := hidle.lasting_select hk
    exact ⟨hlast.issued ▸ hissued, hs.trans (hlast.slots i)⟩

/-- A connection whose packet was refused holds its slot, its descriptor and its pools in every
continuation of the run, and nothing is received, dispatched or sent on it any more. -/
theorem Run.blocked_forever {l : List (ℕ × Action)} (h : Run boot w) (hl : Acts w l w') {i : ℕ}
    (hi : i ∈ w.connected) (hb : (w.slots i).read.handler = some (.adb .adbBlockReading)) :
    i ∈ w'.connected ∧ (w'.slots i).read.handler = some (.adb .adbBlockReading) ∧
      (w'.slots i).wire.history = (w.slots i).wire.history ∧
      (w'.slots i).conn.fd = (w.slots i).conn.fd ∧ (w.slots i).conn.fd ∈ w'.openFds ∧
      (w'.slots i).pools = (w.slots i).pools ∧ ∀ p ∈ (w.slots i).pools, p ∈ w'.livePools := by
  obtain ⟨ht, hlistening⟩ := Finset.mem_filter.mp hi
  obtain ⟨hissued, hacc, halive⟩ := mem_taken.mp ht
  have hinv := stays_connected hi hb
  have hstays : i ∈ w'.issued ∧ (w.slots i).Stays (w'.slots i) := by
    induction hl with
    | none => exact ⟨hissued, .refl _⟩
    | feed prior k x ih => exact hinv.feed k x ih
    | turn prior kernel allowed finished ih =>
      obtain ⟨free, hidle⟩ := (prior.run h).idle
      exact (hinv.step hidle ih (.turn kernel allowed finished)).2
  obtain ⟨hissued', hs⟩ := hstays
  have ht' : i ∈ w'.taken :=
    mem_taken.mpr ⟨hissued', hs.accepted.trans hacc, hs.conn.2.2.2.2.trans halive⟩
  have hpools : (w'.slots i).pools = (w.slots i).pools := by
    unfold Slot.pools
    rw [hs.conn.1, hs.conn.2.1]
  obtain ⟨hlive, hopen, -⟩ := (hl.run h).owners.2.1 i ht'
  refine ⟨Finset.mem_filter.mpr ⟨ht', ?_⟩, hs.handler.trans hb, hs.silent hacc, hs.conn.2.2.1,
    hs.conn.2.2.1 ▸ hopen, hpools, hpools ▸ hlive⟩
  rw [hs.conn.2.2.2.1]
  exact hlistening

/-- A header of zeros was refused, and a byte arrives. -/
theorem Run.blocked_forever_refused :
    1 ∈ (refused.feed 1 (oneByte 79)).connected ∧
      ((refused.feed 1 (oneByte 79)).slots 1).read.handler = some (.adb .adbBlockReading) ∧
      ((refused.feed 1 (oneByte 79)).slots 1).wire.history = (refused.slots 1).wire.history ∧
      ((refused.feed 1 (oneByte 79)).slots 1).conn.fd = (refused.slots 1).conn.fd ∧
      (refused.slots 1).conn.fd ∈ (refused.feed 1 (oneByte 79)).openFds ∧
      ((refused.feed 1 (oneByte 79)).slots 1).pools = (refused.slots 1).pools ∧
      ∀ p ∈ (refused.slots 1).pools, p ∈ (refused.feed 1 (oneByte 79)).livePools :=
  run_refused.blocked_forever (.feed .none 1 (oneByte 79)) (by decide +kernel) rfl

/-! ## A full table -/

/-- The slot was left without a connection, or reading is blocked on its connection. -/
def Slot.Lost (s : Slot) : Prop :=
  s.conn.listening = none ∨ s.read.handler = some (.adb .adbBlockReading)

instance (s : Slot) : Decidable s.Lost :=
  inferInstanceAs (Decidable (s.conn.listening = none ∨ _))

/-- Every slot is in use, and those that were taken are lost. -/
structure Exhausted (w : World) : Prop where
  full : ∀ i < w.connectionN, i ∈ w.issued ∧ (w.slots i).conn.destroyed = false
  lost : ∀ i ∈ w.taken, (w.slots i).Lost

lemma Exhausted.free_nil (h : Exhausted w) (ht : Table w free) : free = [] := by
  refine List.eq_nil_iff_forall_not_mem.mpr fun i hi => ?_
  obtain ⟨hissued, halive⟩ := h.full i (ht.inTable i (.inl hi))
  rw [ht.released i hi hissued] at halive
  cases halive

lemma Exhausted.freeConnections (h : Exhausted w) (ht : Table w free) :
    w.freeConnections = none := by
  have hchain := ht.chain
  rw [h.free_nil ht] at hchain
  exact hchain

lemma World.Table.runOut (h : Table w free) (hfull : w.freeConnections = none)
    (hlost : ∀ i ∈ w.taken, (w.slots i).Lost) : Exhausted w := by
  have hnil : free = [] := by
    have hchain := h.chain
    rw [hfull] at hchain
    exact LinkedChain.Chain.unique hchain .nil
  refine ⟨fun i hi => ?_, hlost⟩
  have hissued : i ∈ w.issued := by
    by_contra hn
    exact absurd (h.unissued i hi hn) (by simp [hnil])
  exact ⟨hissued, (h.entry i ⟨hissued, by simp [hnil]⟩).alive⟩

lemma Lasting.keeps_exhausted (h : Lasting w w') (he : Exhausted w) : Exhausted w' where
  full i hi := by
    rw [h.issued, (h.slots i).conn.2.2.2.2]
    exact he.full i (h.connectionN ▸ hi)
  lost i hi := by
    have hlost := he.lost i (h.taken ▸ hi)
    unfold Slot.Lost at hlost ⊢
    rwa [(h.slots i).conn.2.2.2.1, (h.slots i).handler]

lemma Exhausted.accept (h : Exhausted u) (hb : Batch u free) {l : ℕ} {free' : List ℕ}
    (hl : (u.slots l).read.accepted = true) (ha : Accepting l free free' u v) : Lasting u v := by
  obtain rfl := h.free_nil hb.table
  refine ⟨ha.connectionN, Finset.ext fun j => by simp [ha.issued j], fun j => ?_⟩
  by_cases hj : j = l
  · subst hj
    refine ⟨by simp [ha.conn], by simp [ha.read], by simp [ha.read], ha.history, fun hn => ?_⟩
    rw [hl] at hn
    cases hn
  · rw [ha.others j hj fun hm => absurd hm List.not_mem_nil]
    exact .refl _

lemma Exhausted.handler (h : Exhausted u) (hb : Batch u free) {i : ℕ} {hd : AdbHandler}
    (hi : .read i ∈ u.postedEvents) (hhd : (u.slots i).read.handler = some (.adb hd))
    (hframe : World.Frame i u v)
    (hrun : Prog.run Slot.exec (code hd) (u.slots i).norm = .ok ((), (v.slots i).norm)) :
    Lasting u v := by
  obtain ⟨_, he, hp, hf, -⟩ := hb.others _ hi
  obtain rfl := Ev.read.inj he
  have halive := (hb.table.entry _ ⟨hp.issued, hf⟩).alive
  have hblock := (h.lost _ (mem_taken.mpr ⟨hp.issued, hp.accepted, halive⟩)).resolve_left
    hp.listening
  refine ⟨hframe.connectionN, hframe.issued, fun j => ?_⟩
  by_cases hj : j = i
  · rw [hj]
    exact Slot.stays_blocked hblock hhd hrun
  · exact (hframe.others j hj).stays

lemma World.establishes_full (h : u.freeConnections = none) (l : ℕ) : u.establishes l = none := by
  unfold establishes
  rw [h]
  cases (u.slots l).wire.accepts <;> rfl

lemma Exhausted.calling {ev : Ev} (h : Exhausted u) (hcall : Calling u ev v) : Lasting u v := by
  obtain ⟨⟨free, hb⟩, hev, x, hok, rfl⟩ := hcall
  rcases List.mem_append.mp hev with hA | hP
  · obtain ⟨l, rfl, hl, hacc⟩ := hb.accepts _ hA
    obtain ⟨free', haccepting, -⟩ := hb.accept hA hok
    exact (h.accept hb hacc haccepting).delete l
  · obtain ⟨i, rfl, -⟩ := hb.others _ hP
    obtain ⟨-, hd, hhd, hframe, hrun, -⟩ := hb.handler hP hok
    exact (h.handler hb hP hhd hframe hrun).delete i

lemma Exhausted.calls {l : List (Ev × World)} (h : Exhausted u) (hcalls : Calls u l v) :
    Lasting u v ∧ ∀ c ∈ l, ∀ i, action c ≠ some (i, .accept) := by
  induction hcalls with
  | none w => exact ⟨.refl w, fun c hc => absurd hc List.not_mem_nil⟩
  | @next u v w ev l first rest ih =>
    have hfirst := h.calling first
    obtain ⟨hrest, hnone⟩ := ih (hfirst.keeps_exhausted h)
    refine ⟨hfirst.trans hrest, fun c hc i => ?_⟩
    rcases List.mem_cons.mp hc with rfl | hc
    · obtain ⟨⟨free, hb⟩, -⟩ := first
      have hfull := h.freeConnections hb.table
      unfold action
      split
      · simp
      · rw [establishes_full hfull]
        simp
      · simp
    · exact hnone c hc i

lemma Exhausted.acts {l : List (ℕ × Action)} (h : Exhausted u) (hu : Run boot u)
    (hl : Acts u l w) : Lasting u w ∧ ∀ i, .accept ∉ own i l := by
  induction hl with
  | none => exact ⟨.refl u, fun i => by simp⟩
  | feed prior k x ih =>
    obtain ⟨hlast, hnone⟩ := ih
    refine ⟨hlast.trans ⟨rfl, rfl, stays_feed _ k x⟩, fun i => ?_⟩
    by_cases hi : k = i <;> simp [hi, hnone i]
  | @turn l w w' prior kernel allowed finished ih =>
    obtain ⟨hlast, hnone⟩ := ih
    obtain ⟨free, hidle⟩ := (prior.run hu).idle
    have hselect := hidle.lasting_select allowed
    have hexhausted := hselect.keeps_exhausted (hlast.keeps_exhausted h)
    obtain ⟨hcalls, hno⟩ := hexhausted.calls (hidle.calls allowed finished)
    refine ⟨(hlast.trans hselect).trans hcalls, fun i hm => ?_⟩
    rw [own_append, List.mem_append] at hm
    refine hm.elim (hnone i) fun hm => ?_
    obtain ⟨⟨j, a⟩, hja, ha⟩ := List.mem_filterMap.mp hm
    obtain ⟨c, hc, hca⟩ := List.mem_filterMap.mp hja
    dsimp only at ha
    split_ifs at ha
    obtain rfl := Option.some.inj ha
    exact hno c hc j hca

lemma Lasting.openFds (h : Lasting w w') (ha : Accounted boot w) (ha' : Accounted boot w') :
    w.openFds ⊆ w'.openFds ∧ w'.livePools = w.livePools := by
  refine ⟨fun s hs => ?_, ?_⟩
  · rw [ha'.fds.mem]
    obtain ⟨o, ho⟩ := (ha.fds.mem s).mp hs
    refine ⟨o, ?_⟩
    cases o with
    | none =>
      rw [fdShare, Finset.mem_union] at ho ⊢
      refine ho.imp_right fun hm => ?_
      obtain ⟨l, hl, hsl⟩ := Finset.mem_biUnion.mp hm
      refine Finset.mem_biUnion.mpr ⟨l, h.listeners ▸ hl, ?_⟩
      unfold Slot.unslotted at hsl ⊢
      rw [List.mem_toFinset] at hsl ⊢
      exact ((h.slots l).history.sublist.filterMap _).subset hsl
    | some i =>
      obtain ⟨hi, hfd⟩ := mem_fdShare.mp ho
      exact mem_fdShare.mpr ⟨h.taken ▸ hi, (h.slots i).conn.2.2.1.trans hfd⟩
  · ext p
    rw [ha'.pools.mem, ha.pools.mem]
    refine exists_congr fun i => ?_
    have hpools : (w'.slots i).pools = (w.slots i).pools := by
      unfold Slot.pools
      rw [(h.slots i).conn.1, (h.slots i).conn.2.1]
    rw [mem_poolShare, mem_poolShare, h.taken, hpools]

/-- Once every slot is in use and reading is blocked on every connection, it stays so over every
continuation of the run: no client is accepted, nothing is received, dispatched or sent, and no
descriptor and no pool is given back. -/
theorem Run.exhausted {l : List (ℕ × Action)} (h : Run boot w) (hfull : w.freeConnections = none)
    (hlost : ∀ i ∈ w.taken, (w.slots i).Lost) (hl : Acts w l w') :
    w'.freeConnections = none ∧ w'.connected = w.connected ∧ (∀ i, .accept ∉ own i l) ∧
      (∀ i ∈ w.connected, (w'.slots i).Lost ∧
        (w'.slots i).wire.history = (w.slots i).wire.history) ∧
      w.openFds ⊆ w'.openFds ∧ w'.livePools = w.livePools := by
  obtain ⟨free, hidle⟩ := h.idle
  obtain ⟨free', hidle'⟩ := (hl.run h).idle
  have he := hidle.table.runOut hfull hlost
  obtain ⟨hlast, hnone⟩ := he.acts h hl
  have he' := hlast.keeps_exhausted he
  have hheld := hlast.openFds h.accounted (hl.run h).accounted
  refine ⟨he'.freeConnections hidle'.table, hlast.connected, hnone, fun i hi => ?_, hheld.1,
    hheld.2⟩
  have hm := (Finset.mem_filter.mp hi).1
  exact ⟨he'.lost i (hlast.taken ▸ hm), (hlast.slots i).silent (mem_taken.mp hm).2.1⟩

/-- The only slot for a client is blocked, and a second client knocks. -/
def turnedAway : World := (refused.feed 0 (knock [5])).afterTurn {3}

lemma acts_turnedAway : Acts refused [(0, .feed (knock [5]))] turnedAway :=
  (Acts.none.feed 0 (knock [5])).reporting {3} (by decide +kernel) (by decide +kernel) rfl

theorem Run.exhausted_refused :
    turnedAway.freeConnections = none ∧ turnedAway.connected = refused.connected ∧
      (∀ i, Action.accept ∉ own i [(0, Action.feed (knock [5]))]) ∧
      (∀ i ∈ refused.connected, (turnedAway.slots i).Lost ∧
        (turnedAway.slots i).wire.history = (refused.slots i).wire.history) ∧
      refused.openFds ⊆ turnedAway.openFds ∧ turnedAway.livePools = refused.livePools :=
  run_refused.exhausted (by decide +kernel) (by decide +kernel) acts_turnedAway

end Xdbd
