import Xdbd.Link

/-!
# Interrupted system calls

`xdbd_unix_recv` and `xdbd_unix_send` repeat a call that was interrupted. The receiving loop
carries nothing from one round to the next; the sending loop clears the `ready` bit of the
write event in every interrupted round.
-/
namespace Xdbd

/-- `k` interrupted calls, and then those answered by `rest`. -/
def interrupts {α : Type} (intr : α) (k : ℕ) (rest : List α) : List α :=
  List.replicate k intr ++ rest

lemma interrupts_succ {α : Type} (intr : α) (k : ℕ) (rest : List α) :
    interrupts intr (k + 1) rest = intr :: interrupts intr k rest := rfl

lemma unixRecv_interrupts (rev : Event) (size k : ℕ) (rest : List RecvResult) :
    unixRecv rev size (interrupts .intr k rest) = unixRecv rev size rest := by
  induction k with
  | zero => rfl
  | succ k ih =>
    rw [interrupts_succ, unixRecv]
    exact ih

/-- The write event after `k` interrupted calls of `send`. -/
def Event.afterInterrupts (wev : Event) (k : ℕ) : Event :=
  if k = 0 then wev else { wev with ready := false }

lemma unixSend_interrupts (wev : Event) (sent : ℤ) (size k : ℕ) (rest : List SendResult) :
    unixSend wev sent size (interrupts .intr k rest) =
      unixSend (wev.afterInterrupts k) sent size rest := by
  induction k generalizing wev with
  | zero => rfl
  | succ k ih =>
    rw [interrupts_succ, unixSend, ih]
    simp [Event.afterInterrupts]

/-- The bytes that the kernel accepts of `size`, if the call succeeds. -/
def SendResult.accepted (size : ℕ) : SendResult → Option ℕ
  | .full => some size
  | .short n => some (min n size)
  | _ => none

/-- A short count, zero, or would-block. -/
def SendResult.Partial (size : ℕ) (x : SendResult) : Prop :=
  x = .again ∨ ∃ n, x.accepted size = some n ∧ (n = 0 ∨ n < size)

/-- Zero, would-block, or an error, for a window of `size` bytes. -/
def RecvResult.Unproductive (size : ℕ) (x : RecvResult) : Prop :=
  x = .again ∨ x = .fail ∨ ∃ bs, x = .bytes bs ∧ bs.take size = []

lemma transmitted_ready (wev : Event) (sent : ℤ) (size n : ℕ) (rest : List SendResult) :
    (transmitted wev sent size n rest).wev.ready =
      (wev.ready && decide (0 < n ∧ size ≤ n)) := by
  unfold transmitted
  split_ifs with h0 hn
  · simp [Nat.not_le.mpr hn]
  · simp [h0, Nat.le_of_not_lt hn]
  · simp [h0]

/-- A call of `send` that is not interrupted clears `ready` if it is partial, and else keeps it. -/
lemma unixSend_ready (wev : Event) (sent : ℤ) (size : ℕ) {x : SendResult} (hx : x ≠ .intr)
    (rest : List SendResult) :
    (unixSend wev sent size (x :: rest)).wev.ready = true ↔
      wev.ready = true ∧ ¬ x.Partial size := by
  have haccept : ∀ n, x.accepted size = some n → (x.Partial size ↔ ¬ (0 < n ∧ size ≤ n)) := by
    intro n hn
    have hagain : x ≠ .again := by
      rintro rfl
      cases hn
    unfold SendResult.Partial
    simp only [hn, Option.some.injEq, hagain, false_or, exists_eq_left']
    omega
  cases x with
  | full =>
    rw [unixSend, transmitted_ready, haccept size rfl, not_not, Bool.and_eq_true,
      decide_eq_true_iff]
  | short n =>
    rw [unixSend, transmitted_ready, haccept (min n size) rfl, not_not, Bool.and_eq_true,
      decide_eq_true_iff]
  | again => simp [unixSend, SendResult.Partial]
  | intr => exact absurd rfl hx
  | fail => simp [unixSend, SendResult.Partial, SendResult.accepted]

lemma unixSend_unready (wev : Event) (sent : ℤ) (size : ℕ) {x : SendResult} (hx : x ≠ .intr)
    (hp : x.Partial size) (rest : List SendResult) :
    unixSend { wev with ready := false } sent size (x :: rest) =
      unixSend wev sent size (x :: rest) := by
  have ht : ∀ n, (n = 0 ∨ n < size) →
      transmitted { wev with ready := false } sent size n rest =
        transmitted wev sent size n rest := by
    intro n hn
    unfold transmitted
    split_ifs
    · rfl
    · omega
    · rfl
  rcases hp with rfl | ⟨n, hn, hlt⟩
  · rfl
  · cases x with
    | full =>
      obtain rfl : size = n := Option.some.inj hn
      exact ht size hlt
    | short m =>
      obtain rfl : min m size = n := Option.some.inj hn
      exact ht _ hlt
    | again | fail => cases hn
    | intr => exact absurd rfl hx

lemma unixSend_sent (wev : Event) (sent : ℤ) (size : ℕ) (ks : List SendResult) :
    (unixSend wev sent size ks).sent = sent + max 0 (unixSend wev sent size ks).n := by
  have ht : ∀ (v : Event) (n : ℕ) (rest : List SendResult),
      (transmitted v sent size n rest).sent = sent + max 0 (transmitted v sent size n rest).n := by
    intro v n rest
    unfold transmitted
    split_ifs
    · simp
    · simp
    · exact (add_zero sent).symm
  induction ks generalizing wev with
  | nil => exact ht _ _ _
  | cons k ks ih =>
    cases k with
    | full | short _ => exact ht _ _ _
    | again | fail => simp [unixSend, xdbdAgain, xdbdErr]
    | intr => exact ih _

/-! ## On a connection -/

def Slot.hearing (s : Slot) (ks : List RecvResult) : Slot :=
  { s with wire := { s.wire with recvs := ks } }

def Slot.telling (s : Slot) (ks : List SendResult) : Slot :=
  { s with wire := { s.wire with sends := ks } }

/-- `k` interrupted calls before the answer `x` make no difference to `recv`: not to its result,
not to the flags of the read event, not to `c->sent`; and `ready` is cleared by `x` only. -/
structure RecvTransparent (s : Slot) (b : Buf) (off : ℤ) (size k : ℕ) (x : RecvResult)
    (rest : List RecvResult) : Prop where
  same : (s.hearing (interrupts .intr k (x :: rest))).recv b off size =
    (s.hearing (x :: rest)).recv b off size
  sent : ∀ n t, (s.hearing (interrupts .intr k (x :: rest))).recv b off size = .ok (n, t) →
    t.conn.sent = s.conn.sent
  ready : ∀ n t, (s.hearing (interrupts .intr k (x :: rest))).recv b off size = .ok (n, t) →
    s.read.ready = true → t.read.ready = false → x.Unproductive size

/-- The same for `send`. -/
structure SendTransparent (s : Slot) (bs : List UInt8) (k : ℕ) (x : SendResult)
    (rest : List SendResult) : Prop where
  same : (s.telling (interrupts .intr k (x :: rest))).send bs = (s.telling (x :: rest)).send bs
  sent : ((s.telling (interrupts .intr k (x :: rest))).send bs).2.conn.sent =
    s.conn.sent + max 0 ((s.telling (interrupts .intr k (x :: rest))).send bs).1
  ready : s.write.ready = true →
    ((s.telling (interrupts .intr k (x :: rest))).send bs).2.write.ready = false →
      x.Partial bs.length

theorem Slot.recvTransparent (s : Slot) (b : Buf) (off : ℤ) (size k : ℕ) {x : RecvResult}
    (hx : x ≠ .intr) (rest : List RecvResult) : RecvTransparent s b off size k x rest := by
  have hsame : (s.hearing (interrupts .intr k (x :: rest))).recv b off size =
      (s.hearing (x :: rest)).recv b off size := by
    unfold Slot.recv Slot.hearing
    simp only [unixRecv_interrupts]
    rfl
  refine ⟨hsame, fun n t h => ?_, fun n t h hr ht => ?_⟩
  · rw [Slot.recv_received h]
    rfl
  · rw [hsame] at h
    rw [Slot.recv_received h] at ht
    have hready : (unixRecv s.read size (x :: rest)).rev.ready = false := ht
    cases x with
    | bytes bs =>
      refine .inr (.inr ⟨bs, rfl, ?_⟩)
      by_contra hne
      rw [unixRecv, if_neg (fun h0 => hne (List.length_eq_zero_iff.mp h0))] at hready
      rw [hr] at hready
      cases hready
    | again => exact .inl rfl
    | intr => exact absurd rfl hx
    | fail => exact .inr (.inl rfl)

/-- Sending is not disturbed by interrupted calls if and only if there was none, or the `ready`
bit that they clear is clear at the end anyway. -/
theorem Slot.sendTransparent_iff (s : Slot) (bs : List UInt8) (k : ℕ) {x : SendResult}
    (hx : x ≠ .intr) (rest : List SendResult) :
    SendTransparent s bs k x rest ↔
      k = 0 ∨ s.write.ready = false ∨ x.Partial bs.length := by
  -- what `send` makes of the interrupted calls
  have hsend : (s.telling (interrupts .intr k (x :: rest))).send bs =
      ({ s.telling (x :: rest) with write := s.write.afterInterrupts k }).send bs := by
    unfold Slot.send Slot.telling
    simp only [unixSend_interrupts]
  have hsent : ((s.telling (interrupts .intr k (x :: rest))).send bs).2.conn.sent =
      s.conn.sent + max 0 ((s.telling (interrupts .intr k (x :: rest))).send bs).1 :=
    unixSend_sent s.write s.conn.sent bs.length (interrupts .intr k (x :: rest))
  have hready : ((s.telling (x :: rest)).send bs).2.write.ready = true ↔
      s.write.ready = true ∧ ¬ x.Partial bs.length :=
    unixSend_ready s.write s.conn.sent bs.length hx rest
  constructor
  · intro h
    by_contra hc
    obtain ⟨hk, hs, hp⟩ : k ≠ 0 ∧ s.write.ready ≠ false ∧ ¬ x.Partial bs.length := by
      simpa only [not_or] using hc
    have hw : s.write.ready = true := Bool.eq_true_of_not_eq_false hs
    have hkeep := hready.mpr ⟨hw, hp⟩
    rw [← h.same, hsend] at hkeep
    have := (unixSend_ready (s.write.afterInterrupts k) s.conn.sent bs.length hx rest).mp hkeep
    simp [Event.afterInterrupts, hk] at this
  · intro h
    have hsame : (s.telling (interrupts .intr k (x :: rest))).send bs =
        (s.telling (x :: rest)).send bs := by
      rw [hsend]
      by_cases hk : k = 0
      · rw [Event.afterInterrupts, if_pos hk]
        rfl
      · rw [Event.afterInterrupts, if_neg hk]
        rcases h with h | h | h
        · exact absurd h hk
        · rw [show ({ s.write with ready := false } : Event) = s.write by rw [← h]]
          rfl
        · have := unixSend_unready s.write s.conn.sent bs.length hx h rest
          unfold Slot.send Slot.telling
          simp only [this]
    refine ⟨hsame, hsent, fun hw hu => ?_⟩
    rw [hsame] at hu
    by_contra hp
    have := hready.mpr ⟨hw, hp⟩
    rw [hu] at this
    cases this

/-- Interrupted calls are transparent to receiving, and to sending under the condition above. -/
theorem Slot.interrupts_transparent_iff (s : Slot) (b : Buf) (off : ℤ) (size : ℕ) (bs : List UInt8)
    (k : ℕ) {x : RecvResult} (hx : x ≠ .intr) {y : SendResult} (hy : y ≠ .intr)
    (xs : List RecvResult) (ys : List SendResult) :
    RecvTransparent s b off size k x xs ∧ SendTransparent s bs k y ys ↔
      k = 0 ∨ s.write.ready = false ∨ y.Partial bs.length := by
  rw [← s.sendTransparent_iff bs k hy ys]
  exact and_iff_right (s.recvTransparent b off size k hx xs)

/-- A connection that is ready to be written. -/
def writable : Slot :=
  ⟨Connection.zero 5, Event.zero, { Event.zero with write := true, ready := true }, Wire.fresh⟩

theorem Slot.interrupts_transparent_iff_once :
    SendTransparent writable [1, 2] 1 (.short 1) [] :=
  ((writable.interrupts_transparent_iff ⟨fun _ => 0, 4, 0, 0⟩ 0 4 [1, 2] 1
    (show RecvResult.again ≠ .intr by decide) (show SendResult.short 1 ≠ .intr by decide)
      [] []).mpr (.inr (.inr (.inr ⟨1, rfl, .inr (by decide)⟩)))).2

/-- One interrupted call before two bytes are sent leaves the event not ready. -/
theorem Slot.interrupts_not_transparent : ¬ SendTransparent writable [1, 2] 1 .full [] := by
  intro h
  have := congrArg (fun r => r.2.write.ready) h.same
  exact absurd this (by decide)

end Xdbd
