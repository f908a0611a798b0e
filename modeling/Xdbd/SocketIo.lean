import Xdbd.State

/-!
# recv and send on a connection

`xdbd_unix_recv` and `xdbd_unix_send`: the retry loops around the kernel calls and the
event flags they leave. The loops run along the list of kernel answers.
-/
namespace Xdbd

/-- What `xdbd_unix_recv` leaves: the read event, the value returned, the bytes stored and
the kernel answers not yet used. -/
structure Received where
  rev : Event
  n : ℤ
  bytes : List UInt8
  rest : List RecvResult

/-- What stays in the socket after `size` bytes of `bs` were taken. -/
def undelivered (bs : List UInt8) (size : ℕ) (rest : List RecvResult) : List RecvResult :=
  if bs.drop size = [] then rest else .bytes (bs.drop size) :: rest

def unixRecv (rev : Event) (size : ℕ) : List RecvResult → Received
  | [] => ⟨{ rev with ready := false }, xdbdAgain, [], []⟩
  | .bytes bs :: rest =>
    if (bs.take size).length = 0 then
      ⟨{ rev with ready := false, eof := true }, 0, [], undelivered bs size rest⟩
    else ⟨rev, (bs.take size).length, bs.take size, undelivered bs size rest⟩
  | .again :: rest => ⟨{ rev with ready := false }, xdbdAgain, [], rest⟩
  | .intr :: rest => unixRecv rev size rest
  | .fail :: rest => ⟨{ rev with ready := false, error := true }, xdbdErr, [], rest⟩

/-- What `xdbd_unix_send` leaves: the write event, `c->sent`, the value returned and the
kernel answers not yet used. -/
structure Transmitted where
  wev : Event
  sent : ℤ
  n : ℤ
  rest : List SendResult

/-- The exit of the loop once the kernel has accepted `n` of `size` bytes. -/
def transmitted (wev : Event) (sent : ℤ) (size n : ℕ) (rest : List SendResult) : Transmitted :=
  if 0 < n then
    ⟨if n < size then { wev with ready := false } else wev, sent + n, n, rest⟩
  else ⟨{ wev with ready := false }, sent, 0, rest⟩

def unixSend (wev : Event) (sent : ℤ) (size : ℕ) : List SendResult → Transmitted
  | [] => transmitted wev sent size size []
  | .full :: rest => transmitted wev sent size size rest
  | .short n :: rest => transmitted wev sent size (min n size) rest
  | .again :: rest => ⟨{ wev with ready := false }, sent, xdbdAgain, rest⟩
  | .intr :: rest => unixSend { wev with ready := false } sent size rest
  | .fail :: rest => ⟨{ wev with error := true }, sent, xdbdErr, rest⟩

/-- A call of `xdbd_unix_recv` returns end of stream, would-block, an error, or a positive
count of bytes that fit the window. -/
theorem unixRecv_cases (rev : Event) (size : ℕ) (ks : List RecvResult) :
    let r := unixRecv rev size ks
    (r.n = 0 ∧ r.bytes = []) ∨ (r.n = xdbdAgain ∧ r.bytes = []) ∨ (r.n = xdbdErr ∧ r.bytes = []) ∨
      (r.n = r.bytes.length ∧ 0 < r.bytes.length ∧ r.bytes.length ≤ size ∧ r.rev = rev) := by
  induction ks with
  | nil => exact .inr (.inl ⟨rfl, rfl⟩)
  | cons k ks ih =>
    cases k with
    | bytes bs =>
      by_cases h : (bs.take size).length = 0
      · have hr : unixRecv rev size (.bytes bs :: ks) =
            ⟨{ rev with ready := false, eof := true }, 0, [], undelivered bs size ks⟩ := by
          rw [unixRecv, if_pos h]
        rw [hr]
        exact .inl ⟨rfl, rfl⟩
      · have hr : unixRecv rev size (.bytes bs :: ks) =
            ⟨rev, (bs.take size).length, bs.take size, undelivered bs size ks⟩ := by
          rw [unixRecv, if_neg h]
        rw [hr]
        exact .inr (.inr (.inr ⟨rfl, Nat.pos_of_ne_zero h, List.length_take_le _ _, rfl⟩))
    | again => exact .inr (.inl ⟨rfl, rfl⟩)
    | intr => exact ih
    | fail => exact .inr (.inr (.inl ⟨rfl, rfl⟩))

lemma count_ne_again {n : ℕ} : (n : ℤ) ≠ xdbdAgain := by
  unfold xdbdAgain
  omega

lemma count_not_failed {n : ℕ} (hn : 0 < n) : ¬ ((n : ℤ) = 0 ∨ (n : ℤ) = xdbdErr) := by
  unfold xdbdErr
  omega

lemma again_not_failed : ¬ (xdbdAgain = 0 ∨ xdbdAgain = xdbdErr) := by decide

lemma unixRecv_length (rev : Event) (size : ℕ) (ks : List RecvResult) :
    (unixRecv rev size ks).bytes.length ≤ size := by
  rcases unixRecv_cases rev size ks with h | h | h | h
  · simp [h.2]
  · simp [h.2]
  · simp [h.2]
  · exact h.2.2.1

/-- `xdbd_unix_recv` neither reads the event nor writes any but three of its bits, so that a change
`f` of the event that keeps these may come before or after it. -/
lemma unixRecv_map {f : Event → Event} (hready : ∀ e, f { e with ready := false } =
      { f e with ready := false })
    (heof : ∀ e, f { e with eof := true } = { f e with eof := true })
    (herror : ∀ e, f { e with error := true } = { f e with error := true })
    (rev : Event) (size : ℕ) (ks : List RecvResult) :
    unixRecv (f rev) size ks =
      { unixRecv rev size ks with rev := f (unixRecv rev size ks).rev } := by
  have hend : f { rev with ready := false, eof := true } =
      { f rev with ready := false, eof := true } :=
    (heof { rev with ready := false }).trans
      (congrArg (fun e : Event => { e with eof := true }) (hready rev))
  have hfail : f { rev with ready := false, error := true } =
      { f rev with ready := false, error := true } :=
    (herror { rev with ready := false }).trans
      (congrArg (fun e : Event => { e with error := true }) (hready rev))
  induction ks with
  | nil => rw [unixRecv, unixRecv, hready]
  | cons k ks ih =>
    cases k with
    | bytes bs =>
      simp only [unixRecv]
      split_ifs
      · rw [hend]
      · rfl
    | again => rw [unixRecv, unixRecv, hready]
    | intr => exact ih
    | fail => rw [unixRecv, unixRecv, hfail]

/-- Only the `ready`, `eof` and `error` bits of the read event can change. -/
theorem unixRecv_rev (rev : Event) (size : ℕ) (ks : List RecvResult) :
    (unixRecv rev size ks).rev =
      { rev with ready := (unixRecv rev size ks).rev.ready,
                 eof := (unixRecv rev size ks).rev.eof,
                 error := (unixRecv rev size ks).rev.error } := by
  induction ks with
  | nil => rfl
  | cons k ks ih =>
    cases k with
    | bytes bs =>
      simp only [unixRecv]
      split_ifs <;> rfl
    | again => rfl
    | intr => exact ih
    | fail => rfl

theorem unixSend_wev (wev : Event) (sent : ℤ) (size : ℕ) (ks : List SendResult) :
    (unixSend wev sent size ks).wev =
      { wev with ready := (unixSend wev sent size ks).wev.ready,
                 error := (unixSend wev sent size ks).wev.error } := by
  have ht : ∀ (v : Event) (n : ℕ) (rest : List SendResult),
      (transmitted v sent size n rest).wev =
        { v with ready := (transmitted v sent size n rest).wev.ready,
                 error := (transmitted v sent size n rest).wev.error } := by
    intro v n rest
    unfold transmitted
    split_ifs <;> rfl
  induction ks generalizing wev with
  | nil => exact ht _ _ _
  | cons k ks ih =>
    cases k with
    | full => exact ht _ _ _
    | short n => exact ht _ _ _
    | again => rfl
    | intr => exact ih { wev with ready := false }
    | fail => rfl

end Xdbd
