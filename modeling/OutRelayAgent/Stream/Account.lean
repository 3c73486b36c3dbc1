import OutRelayAgent.Stream.Io
import OutRelayAgent.Resume.State
import Mathlib.Algebra.BigOperators.Group.List.Basic
import Mathlib.Algebra.Order.Ring.Nat

/-!
# What `Read` and `Write` account for

A call of `Read` or `Write` can pass over several inners (`session.go:457-530`). `readPasses` and
`writePasses` are the passes in which an inner is called, for any results of the inners and any
`SwapInner`, `markAbandoned` and timeouts in between.

* `Write` counts what the inners accept: `accepted` is the part of the buffer each pass hands over.
* `Read` returns what its last pass delivers, and the earlier ones delivered nothing.
* The calls of `OnWrite` and `OnRead`, in whatever order concurrent calls make them, leave `Sent`
  and `Received` at the sums of the results (`bytes_accounted`).

A result with data and an error at once is returned as it is: `Read` returns the error without a
wait (`session.go:471-474`), where `Write` waits. So a transport error surfaces after a wait exactly
if it came without data (`error_after_wait_iff`). Of inners that are replaced within
`ResumeRetryWindow` of their failure, `Read` survives those that fail without data and are replaced
before the call is that old; `copyAndDone` ends on the others (`torn_down`).
-/

namespace OutRelayAgent.Stream

variable {β ρ ε : Type}

/-- The pass has failed with an error other than `io.EOF`. -/
def Attempt.failed (a : Attempt ρ ε) : Bool :=
  match a.err with
  | some (.transport _) => true
  | _ => false

def Outcome.done : Outcome ρ ε → ρ
  | .blocked d => d
  | .returned d _ => d

/-! ## `Read` -/

section Read

variable (h : Lifetime) (deadline : ℕ)

/-- `Read` enters `waitForResume` after the pass. -/
def Attempt.entersWait (a : Attempt (List β) ε) : Bool := a.result.isEmpty && a.failed

/-- `Read` waits after the pass, and then goes on. -/
def Attempt.readGoesOn (a : Attempt (List β) ε) : Bool := a.entersWait && a.waits h deadline

/-- The passes in which `Read` calls an inner. -/
def readPasses : List (Attempt (List β) ε) → List (Attempt (List β) ε)
  | [] => []
  | a :: as =>
    if h.abandonedBy a.captureAt then []
    else if a.readGoesOn h deadline then a :: readPasses as
    else [a]

variable {h deadline} {a : Attempt (List β) ε} {as : List (Attempt (List β) ε)}

/-- One pass of `Read`. -/
theorem readLoop_cons (a : Attempt (List β) ε) (as : List (Attempt (List β) ε)) :
    readLoop h deadline (a :: as) =
      if h.abandonedBy a.captureAt then .returned ⟨[], []⟩ (some .streamLost)
      else if a.readGoesOn h deadline then readLoop h deadline as
      else .returned ⟨a.result, if a.result = [] then [] else [a.result.length]⟩
        (a.err.map .inner) := by
  obtain ⟨captureAt, result, err, now, tie⟩ := a
  rw [readLoop, Attempt.readGoesOn, Attempt.entersWait, Attempt.failed]
  by_cases hlost : h.abandonedBy captureAt = true
  · rw [if_pos hlost, if_pos hlost]
  · rw [if_neg hlost, if_neg hlost]
    by_cases hdata : result = []
    · subst hdata
      rcases err with _ | _ | e
      · rfl
      · rfl
      · simp
    · rw [if_pos hdata, if_neg hdata, if_neg (by simp [hdata])]

theorem goesOn_result (hgo : a.readGoesOn h deadline = true) : a.result = [] := by
  simp only [Attempt.readGoesOn, Attempt.entersWait, Bool.and_eq_true, List.isEmpty_iff] at hgo
  exact hgo.1.1

/-- `Read` returns the bytes of its last pass, which are all that were delivered, and counts them
once. -/
theorem readLoop_spec (as : List (Attempt (List β) ε)) :
    (readLoop h deadline as).done.bytes =
        ((readPasses h deadline as).getLast?.map (·.result)).getD [] ∧
      (readLoop h deadline as).done.bytes =
        ((readPasses h deadline as).map (·.result)).flatten ∧
      (readLoop h deadline as).done.onRead.sum =
        (readLoop h deadline as).done.bytes.length := by
  induction as with
  | nil => exact ⟨rfl, rfl, rfl⟩
  | cons a as ih =>
    rw [readLoop_cons, readPasses]
    by_cases hlost : h.abandonedBy a.captureAt = true
    · rw [if_pos hlost, if_pos hlost]
      exact ⟨rfl, rfl, rfl⟩
    · rw [if_neg hlost, if_neg hlost]
      by_cases hgo : a.readGoesOn h deadline = true
      · obtain ⟨hlast, hall, hsum⟩ := ih
        rw [if_pos hgo, if_pos hgo]
        refine ⟨?_, ?_, hsum⟩
        · rw [hlast]
          cases hp : readPasses h deadline as with
          | nil => simp [goesOn_result hgo]
          | cons b bs => rw [List.getLast?_cons_cons]
        · rw [hall, List.map_cons, List.flatten_cons, goesOn_result hgo, List.nil_append]
      · rw [if_neg hgo, if_neg hgo]
        refine ⟨rfl, by simp [Outcome.done], ?_⟩
        by_cases hdata : a.result = []
        · simp [Outcome.done, hdata]
        · simp [Outcome.done, hdata]

/-- An error of the transport that `Read` returns is that of its last pass, and either there was no
data and a wait has ended in vain, or there was data. -/
theorem readLoop_transport {d : ReadDone β} {e : ε}
    (hret : readLoop h deadline as = .returned d (some (.inner (.transport e)))) :
    ∃ a ∈ as, (readPasses h deadline as).getLast? = some a ∧ a.err = some (.transport e) ∧
      (a.result = [] → a.waits h deadline = false) := by
  induction as with
  | nil => cases hret
  | cons a as ih =>
    rw [readLoop_cons] at hret
    rw [readPasses]
    by_cases hlost : h.abandonedBy a.captureAt = true
    · rw [if_pos hlost] at hret
      cases hret
    · rw [if_neg hlost] at hret ⊢
      by_cases hgo : a.readGoesOn h deadline = true
      · rw [if_pos hgo] at hret ⊢
        obtain ⟨b, hb, hlast, herr, hwait⟩ := ih hret
        refine ⟨b, List.mem_cons_of_mem a hb, ?_, herr, hwait⟩
        rw [List.getLast?_cons, hlast]
        rfl
      · rw [if_neg hgo] at hret ⊢
        have herr : a.err = some (.transport e) := by
          obtain ⟨x, hx, heq⟩ := Option.map_eq_some_iff.mp (Outcome.returned.inj hret).2
          cases heq
          exact hx
        refine ⟨a, List.mem_cons_self, rfl, herr, fun hdata => ?_⟩
        simpa [Attempt.readGoesOn, Attempt.entersWait, Attempt.failed, hdata, herr] using hgo

end Read

/-! ## `Write` -/

section Write

variable (h : Lifetime) (deadline : ℕ)

/-- `Write` goes on after the pass, with `written` of `total` bytes written before. -/
def Attempt.writeGoesOn (total written : ℕ) (a : Attempt ℕ ε) : Bool :=
  decide (written + a.result ≠ total) && (a.err.isNone || a.failed && a.waits h deadline)

/-- The passes in which `Write` calls an inner. -/
def writePasses (total : ℕ) : ℕ → List (Attempt ℕ ε) → List (Attempt ℕ ε)
  | _, [] => []
  | written, a :: as =>
    if ¬ written < total ∨ h.abandonedBy a.captureAt then []
    else if a.writeGoesOn h deadline total written then
      a :: writePasses total (written + a.result) as
    else [a]

/-- What the inners accept of the buffer, pass by pass. -/
def accepted : List β → List (Attempt ℕ ε) → List (List β)
  | _, [] => []
  | rest, a :: as => rest.take a.result :: accepted (rest.drop a.result) as

/-- No inner accepts more than it is given. -/
def Fits : ℕ → List (Attempt ℕ ε) → Prop
  | _, [] => True
  | n, a :: as => a.result ≤ n ∧ Fits (n - a.result) as

variable {h deadline} {p : List β} {d : WriteDone β}

theorem accepted_take (rest : List β) (as : List (Attempt ℕ ε)) :
    (accepted rest as).flatten = rest.take (accepted rest as).flatten.length := by
  refine List.prefix_iff_eq_take.mp ?_
  induction as generalizing rest with
  | nil => exact List.nil_prefix
  | cons a as ih =>
    obtain ⟨t, ht⟩ := ih (rest.drop a.result)
    refine ⟨t, ?_⟩
    rw [accepted, List.flatten_cons, List.append_assoc, ht, List.take_append_drop]

/-- One pass of `Write`. -/
theorem writeLoop_cons (hlt : d.written < p.length) (a : Attempt ℕ ε) (as : List (Attempt ℕ ε)) :
    writeLoop h deadline p d (a :: as) =
      if h.abandonedBy a.captureAt then .returned d (some .streamLost)
      else if a.writeGoesOn h deadline p.length d.written then
        writeLoop h deadline p (d.accept p a.result) as
      else .returned (d.accept p a.result)
        (if d.written + a.result = p.length then none else a.err.map .inner) := by
  rw [writeLoop, if_neg (not_not_intro hlt), Attempt.writeGoesOn, Attempt.failed,
    show (d.accept p a.result).written = d.written + a.result from rfl]
  by_cases hlost : h.abandonedBy a.captureAt = true
  · rw [if_pos hlost, if_pos hlost]
  · rw [if_neg hlost, if_neg hlost]
    by_cases hfull : d.written + a.result = p.length
    · rw [if_pos hfull, if_pos hfull, if_neg (by simp [hfull])]
    · rw [if_neg hfull, if_neg hfull]
      rcases herr : a.err with _ | _ | e
      · simp [hfull]
      · simp
      · simp [hfull]

/-- A pass adds what the inner accepts to the count and to the calls of `OnWrite`. -/
theorem accept_spec {n : ℕ} (hn : n ≤ p.length - d.written) :
    (d.accept p n).written = d.written + ((p.drop d.written).take n).length ∧
      (d.accept p n).onWrite = d.onWrite ++ [(p.drop d.written).take n].filter (· ≠ []) := by
  have hlen : ((p.drop d.written).take n).length = n := by
    rw [List.length_take, List.length_drop, Nat.min_eq_left hn]
  refine ⟨by rw [hlen]; rfl, ?_⟩
  rw [WriteDone.accept]
  by_cases hpos : 0 < n
  · have hne : (p.drop d.written).take n ≠ [] := List.ne_nil_of_length_pos (by omega)
    simp [hpos, hne]
  · obtain rfl : n = 0 := Nat.eq_zero_of_not_pos hpos
    simp

/-- `Write` counts what the inners accept. -/
theorem writeLoop_spec (as : List (Attempt ℕ ε)) (hfits : Fits (p.length - d.written) as) :
    (writeLoop h deadline p d as).done.written = d.written +
        (accepted (p.drop d.written)
          (writePasses h deadline p.length d.written as)).flatten.length ∧
      (writeLoop h deadline p d as).done.onWrite = d.onWrite ++
        (accepted (p.drop d.written)
          (writePasses h deadline p.length d.written as)).filter (· ≠ []) := by
  induction as generalizing d with
  | nil =>
    rw [writeLoop]
    by_cases hlt : d.written < p.length
    · rw [if_pos hlt]
      exact ⟨rfl, (List.append_nil _).symm⟩
    · rw [if_neg hlt]
      exact ⟨rfl, (List.append_nil _).symm⟩
  | cons a as ih =>
    obtain ⟨hn, hrest⟩ := hfits
    obtain ⟨hwritten, hslices⟩ := accept_spec hn
    rw [writePasses]
    by_cases hlt : d.written < p.length
    · rw [writeLoop_cons hlt]
      by_cases hlost : h.abandonedBy a.captureAt = true
      · rw [if_pos hlost, if_pos (.inr hlost)]
        exact ⟨rfl, (List.append_nil _).symm⟩
      · have hcalled : ¬ (¬ d.written < p.length ∨ h.abandonedBy a.captureAt = true) := by
          simp [hlt, hlost]
        rw [if_neg hlost, if_neg hcalled]
        by_cases hgo : a.writeGoesOn h deadline p.length d.written = true
        · rw [Nat.sub_sub] at hrest
          obtain ⟨hw, ho⟩ := ih (d := d.accept p a.result) hrest
          rw [if_pos hgo, if_pos hgo, accepted, List.drop_drop, hw, ho]
          refine ⟨?_, ?_⟩
          · rw [List.flatten_cons, List.length_append, ← Nat.add_assoc, ← hwritten]
            rfl
          · rw [hslices, List.append_assoc, ← List.filter_append]
            rfl
        · rw [if_neg hgo, if_neg hgo]
          refine ⟨hwritten.trans ?_, hslices⟩
          rw [accepted, accepted, List.flatten_singleton]
    · rw [writeLoop, if_pos hlt, if_pos (.inl hlt)]
      exact ⟨rfl, (List.append_nil _).symm⟩

/-- There is no error exactly if all of the buffer is written. -/
theorem writeLoop_err (as : List (Attempt ℕ ε)) (hle : d.written ≤ p.length)
    (hfits : Fits (p.length - d.written) as) {d' : WriteDone β} {err : Option (Error ε)}
    (hret : writeLoop h deadline p d as = .returned d' err) :
    err = none ↔ d'.written = p.length := by
  induction as generalizing d with
  | nil =>
    rw [writeLoop] at hret
    by_cases hlt : d.written < p.length
    · rw [if_pos hlt] at hret
      cases hret
    · rw [if_neg hlt] at hret
      cases hret
      exact iff_of_true rfl (Nat.le_antisymm hle (Nat.le_of_not_lt hlt))
  | cons a as ih =>
    obtain ⟨hn, hrest⟩ := hfits
    by_cases hlt : d.written < p.length
    · rw [writeLoop_cons hlt] at hret
      by_cases hlost : h.abandonedBy a.captureAt = true
      · rw [if_pos hlost] at hret
        cases hret
        exact iff_of_false (Option.some_ne_none _) (Nat.ne_of_lt hlt)
      · rw [if_neg hlost] at hret
        by_cases hgo : a.writeGoesOn h deadline p.length d.written = true
        · rw [if_pos hgo] at hret
          refine ih (d := d.accept p a.result) ?_ ?_ hret
          · exact Nat.add_le_of_le_sub' hle hn
          · rw [Nat.sub_sub] at hrest
            exact hrest
        · rw [if_neg hgo] at hret
          obtain ⟨rfl, rfl⟩ := Outcome.returned.inj hret
          by_cases hfull : d.written + a.result = p.length
          · rw [if_pos hfull]
            exact iff_of_true rfl hfull
          · rw [if_neg hfull]
            refine iff_of_false (fun hnone => hgo ?_) hfull
            simp [Attempt.writeGoesOn, hfull, Option.map_eq_none_iff.mp hnone]
    · rw [writeLoop, if_pos hlt] at hret
      cases hret
      exact iff_of_true rfl (Nat.le_antisymm hle (Nat.le_of_not_lt hlt))

end Write

/-! ## The counters -/

/-- A call of `Read` or `Write`, with the passes the environment plays. -/
inductive Call (β ε : Type)
  | read (t₀ : ℕ) (as : List (Attempt (List β) ε))
  | write (t₀ : ℕ) (p : List β) (as : List (Attempt ℕ ε))

/-- What is done to the `resume.State` of the stream. -/
inductive Op (β : Type)
  | onWrite (bs : List β)
  | onRead (n : ℕ)
  | checkpoint (p : ℕ)

namespace Call

variable (h : Lifetime)

/-- The operations a call makes, in their order. -/
def ops : Call β ε → List (Op β)
  | .read t₀ as => (Stream.read h t₀ as).done.onRead.map .onRead
  | .write t₀ p as => (Stream.write h t₀ p as).done.onWrite.map .onWrite

/-- The bytes written by the call: the result of `Write`, or what it has written so far. -/
def written : Call β ε → ℕ
  | .read _ _ => 0
  | .write t₀ p as => (Stream.write h t₀ p as).done.written

/-- The bytes read by the call: the result of `Read`. -/
def received : Call β ε → ℕ
  | .read t₀ as => (Stream.read h t₀ as).done.bytes.length
  | .write _ _ _ => 0

def Fits : Call β ε → Prop
  | .read _ _ => True
  | .write _ p as => Stream.Fits p.length as

end Call

namespace Op

def apply (L : ResumeLib β) (st : L.State) : Op β → L.State
  | .onWrite bs => L.onWrite st bs
  | .onRead n => L.onRead st n
  | .checkpoint p => L.onCheckpointFromPeer st p

def sent : Op β → ℕ
  | .onWrite bs => bs.length
  | _ => 0

def received : Op β → ℕ
  | .onRead n => n
  | _ => 0

/-- Each operation moves its counter. -/
theorem tracks_foldl {L : ResumeLib β} (ops : List (Op β)) {st : L.State} {w : List β} {r : ℕ}
    (h : L.Tracks st w r) :
    ∃ w', L.Tracks (ops.foldl (apply L) st) w' (r + (ops.map received).sum) ∧
      w'.length = w.length + (ops.map sent).sum := by
  induction ops generalizing st w r with
  | nil => exact ⟨w, h, rfl⟩
  | cons op ops ih =>
    rw [List.foldl_cons, List.map_cons, List.map_cons, List.sum_cons, List.sum_cons,
      ← Nat.add_assoc, ← Nat.add_assoc]
    cases op with
    | onWrite bs =>
      obtain ⟨w', hw, hlen⟩ := ih (h.write bs)
      rw [List.length_append] at hlen
      exact ⟨w', hw, hlen⟩
    | onRead n => exact ih (h.read n)
    | checkpoint p => exact ih (h.checkpoint p)

end Op

section Counters

variable {h : Lifetime}

/-- `Write`, as a whole. -/
theorem write_spec (t₀ : ℕ) {p : List β} {as : List (Attempt ℕ ε)} (hfits : Fits p.length as) :
    (write h t₀ p as).done.written =
        (accepted p (writePasses h (t₀ + resumeRetryWindow) p.length 0 as)).flatten.length ∧
      (write h t₀ p as).done.onWrite =
        (accepted p (writePasses h (t₀ + resumeRetryWindow) p.length 0 as)).filter (· ≠ []) := by
  obtain ⟨hw, ho⟩ := writeLoop_spec (h := h) (d := ⟨0, []⟩) as hfits
  exact ⟨hw.trans (Nat.zero_add _), ho⟩

/-- The operations of a call account for its result. -/
theorem sum_ops {c : Call β ε} (hfits : c.Fits) :
    ((c.ops h).map Op.sent).sum = c.written h ∧ ((c.ops h).map Op.received).sum = c.received h := by
  cases c with
  | read t₀ as =>
    have hsum : (read h t₀ as).done.onRead.sum = (read h t₀ as).done.bytes.length :=
      (readLoop_spec as).2.2
    rw [Call.ops, List.map_map, List.map_map]
    refine ⟨?_, ?_⟩
    · exact List.sum_eq_zero (by simp [Op.sent])
    · rw [show Op.received ∘ (Op.onRead : ℕ → Op β) = id from rfl, List.map_id, hsum]
      rfl
  | write t₀ p as =>
    obtain ⟨hw, ho⟩ := write_spec (h := h) t₀ hfits
    rw [Call.ops, List.map_map, List.map_map]
    refine ⟨?_, ?_⟩
    · rw [show Op.sent ∘ (Op.onWrite : List β → Op β) = List.length from rfl,
        ← List.length_flatten, ho, List.flatten_filter_ne_nil, ← hw]
      rfl
    · exact List.sum_eq_zero (by simp [Op.received])

/-- The counters after the operations of some calls, in any order, with checkpoints among them. -/
theorem counters_eq {L : ResumeLib β} (hL : L.Lawful) {calls : List (Call β ε)}
    (hfits : ∀ c ∈ calls, c.Fits) {checkpoints : List ℕ} {ops : List (Op β)}
    (hops : ops.Perm (calls.flatMap (·.ops h) ++ checkpoints.map .checkpoint)) :
    L.sent (ops.foldl (Op.apply L) L.newState) = (calls.map (·.written h)).sum ∧
      L.received (ops.foldl (Op.apply L) L.newState) = (calls.map (·.received h)).sum := by
  have hcalls : ((calls.flatMap (·.ops h)).map Op.sent).sum = (calls.map (·.written h)).sum ∧
      ((calls.flatMap (·.ops h)).map Op.received).sum = (calls.map (·.received h)).sum := by
    clear hops
    induction calls with
    | nil => exact ⟨rfl, rfl⟩
    | cons c calls ih =>
      obtain ⟨hsent, hreceived⟩ := sum_ops (h := h) (hfits c List.mem_cons_self)
      obtain ⟨ihs, ihr⟩ := ih fun c' hc' => hfits c' (List.mem_cons_of_mem c hc')
      simp [hsent, hreceived, ihs, ihr]
  obtain ⟨w, htracks, hlen⟩ := Op.tracks_foldl ops ResumeLib.Tracks.new
  have hsent := (hops.map Op.sent).sum_eq
  have hreceived := (hops.map Op.received).sum_eq
  have hzero : (((checkpoints.map Op.checkpoint).map (Op.sent : Op β → ℕ)).sum = 0) ∧
      ((checkpoints.map Op.checkpoint).map (Op.received : Op β → ℕ)).sum = 0 :=
    ⟨List.sum_eq_zero (by simp [Op.sent]), List.sum_eq_zero (by simp [Op.received])⟩
  rw [List.map_append, List.sum_append, hzero.1, hcalls.1] at hsent
  rw [List.map_append, List.sum_append, hzero.2, hcalls.2] at hreceived
  rw [hL.sent_eq htracks, hL.received_eq htracks, hlen, hsent, hreceived]
  simp

end Counters

/-- **`Read` and `Write` account for every byte**, for any results of the inners, over any number of
`SwapInner`, timeout and abandonment events during the call. -/
theorem bytes_accounted (h : Lifetime) :
    (∀ t₀ (p : List β) (as : List (Attempt ℕ ε)) d err, Fits p.length as →
      write h t₀ p as = .returned d err →
      (accepted p (writePasses h (t₀ + resumeRetryWindow) p.length 0 as)).flatten =
          p.take d.written ∧
        d.onWrite.flatten = p.take d.written ∧
        d.onWrite =
          (accepted p (writePasses h (t₀ + resumeRetryWindow) p.length 0 as)).filter (· ≠ []) ∧
        (err = none ↔ d.written = p.length)) ∧
    (∀ t₀ (as : List (Attempt (List β) ε)) d err, read h t₀ as = .returned d err →
      d.onRead.sum = d.bytes.length ∧
        d.bytes = ((readPasses h (t₀ + resumeRetryWindow) as).getLast?.map (·.result)).getD [] ∧
        d.bytes = ((readPasses h (t₀ + resumeRetryWindow) as).map (·.result)).flatten) ∧
    (∀ L : ResumeLib β, L.Lawful → ∀ (calls : List (Call β ε)) (checkpoints : List ℕ)
      (ops : List (Op β)),
      (∀ c ∈ calls, c.Fits) → ops.Perm (calls.flatMap (·.ops h) ++ checkpoints.map .checkpoint) →
      L.sent (ops.foldl (Op.apply L) L.newState) = (calls.map (·.written h)).sum ∧
        L.received (ops.foldl (Op.apply L) L.newState) = (calls.map (·.received h)).sum) := by
  refine ⟨fun t₀ p as d err hfits hret => ?_, fun t₀ as d err hret => ?_,
    fun L hL calls checkpoints ops hfits hops => counters_eq hL hfits hops⟩
  · obtain ⟨hw, ho⟩ := write_spec (h := h) t₀ hfits
    rw [hret] at hw ho
    change d.written = _ at hw
    change d.onWrite = _ at ho
    have htake := accepted_take p (writePasses h (t₀ + resumeRetryWindow) p.length 0 as)
    rw [← hw] at htake
    refine ⟨htake, ?_, ho, writeLoop_err (d := ⟨0, []⟩) as (Nat.zero_le _) hfits hret⟩
    rw [← htake, ho, List.flatten_filter_ne_nil]
  · obtain ⟨hlast, hall, hsum⟩ := @readLoop_spec β ε h (t₀ + resumeRetryWindow) as
    rw [read] at hret
    rw [hret] at hlast hall hsum
    exact ⟨hsum, hlast, hall⟩

/-- Three bytes over two inners: the first accepts two of them and fails. -/
def twoPasses : List (Attempt ℕ Unit) :=
  [⟨20 * second, 2, some (.transport ()), 40 * second, true⟩,
    ⟨41 * second, 1, none, 42 * second, true⟩]

theorem twoPasses_accounted :
    write swappedAt40 (20 * second) [7, 8, 9] twoPasses = .returned ⟨3, [[7, 8], [9]]⟩ none ∧
      (accepted [7, 8, 9]
        (writePasses swappedAt40 (20 * second + resumeRetryWindow) 3 0 twoPasses)).flatten =
          [7, 8, 9].take 3 := by
  have hret : write swappedAt40 (20 * second) [7, 8, 9] twoPasses =
      .returned ⟨3, [[7, 8], [9]]⟩ none := rfl
  exact ⟨hret, ((bytes_accounted swappedAt40).1 (20 * second) [7, 8, 9] twoPasses _ _
    ⟨by decide, by decide, trivial⟩ hret).1⟩

/-! ## Data and an error at once -/

/-- How `copyAndDone` ends. -/
inductive CopyEnd (ε : Type)
  /-- `dst.Write` failed. -/
  | writeFailed
  /-- `src.Read` returned an error, and the write side of `dst` is closed. -/
  | readFailed (err : Error ε)

/-- `copyAndDone` from a `ResumableStream`. For each `Read` the environment plays the passes, and
says whether `dst.Write` takes the data. What is handed to `dst.Write`, and how the loop ends, if it
does. -/
def copyAndDone (h : Lifetime) :
    List (ℕ × List (Attempt (List β) ε) × Bool) → List (List β) × Option (CopyEnd ε)
  | [] => ([], none)
  | (t₀, as, taken) :: calls =>
    match read h t₀ as with
    | .blocked _ => ([], none)
    | .returned d err =>
      let chunk := if d.bytes ≠ [] then [d.bytes] else []
      if d.bytes ≠ [] ∧ ¬ taken then (chunk, some .writeFailed)
      else
        match err with
        | some e => (chunk, some (.readFailed e))
        | none =>
          let rest := copyAndDone h calls
          (chunk ++ rest.1, rest.2)

/-- Every inner that fails in the call is replaced within `ResumeRetryWindow` of its failure. -/
def Replaced (h : Lifetime) (as : List (Attempt (List β) ε)) : Prop :=
  ∀ a ∈ as, a.failed = true → ∃ s ∈ h.swaps, a.captureAt < s ∧ s < a.now + resumeRetryWindow

/-- The failure and the replacement come before the call that began at `t₀` is `ResumeRetryWindow`
old. -/
def Attempt.InTime (h : Lifetime) (t₀ : ℕ) (a : Attempt ρ ε) : Prop :=
  a.now < t₀ + resumeRetryWindow ∧
    ∀ s, h.nextSwap a.captureAt = some s → s < t₀ + resumeRetryWindow

section Torn

variable {h : Lifetime} {t₀ : ℕ} {as : List (Attempt (List β) ε)}

/-- An inner that is replaced at all: the call can wait for it exactly if it is in time. -/
theorem waits_iff_inTime (hlive : h.abandonedAt = none) {a : Attempt ρ ε}
    (hswap : ∃ s ∈ h.swaps, a.captureAt < s) :
    (∀ tie, (a.withTie tie).waits h (t₀ + resumeRetryWindow) = true) ↔ a.InTime h t₀ := by
  rw [waits_iff hlive, ← Lifetime.nextSwap_lt_iff]
  refine and_congr_right fun _ => ⟨?_, fun hall => ?_⟩
  · rintro ⟨s, hs, hlt⟩ s' hs'
    obtain rfl : s = s' := Option.some.inj (hs.symm.trans hs')
    exact hlt
  · obtain ⟨s, hs, hlt⟩ := hswap
    obtain ⟨s', hs', -⟩ := Lifetime.nextSwap_lt_iff.mpr ⟨s, hs, hlt, Nat.lt_succ_self s⟩
    exact ⟨s', hs', hall s' hs'⟩

/-- A pass with a transport error is gone past exactly if it came without data, in time. -/
theorem readGoesOn_iff_inTime (hlive : h.abandonedAt = none) {a : Attempt (List β) ε} {e : ε}
    (herr : a.err = some (.transport e)) (hswap : ∃ s ∈ h.swaps, a.captureAt < s) :
    ReadGoesOn h (t₀ + resumeRetryWindow) a ↔ a.result = [] ∧ a.InTime h t₀ := by
  by_cases hdata : a.result = []
  · rw [readGoesOn_iff hlive hdata herr, waits_iff_inTime hlive hswap]
    exact (and_iff_right hdata).symm
  · -- With data the call returns at once, and with no further pass it would be blocked.
    refine iff_of_false (fun hgo => ?_) fun hboth => hdata hboth.1
    have hcall := hgo true []
    simp [readLoop, Lifetime.abandonedBy, hlive, Attempt.withTie, hdata] at hcall

/-- A `Read` whose inners are replaced in time and fail without data returns no transport error. -/
theorem read_not_transport (hlive : h.abandonedAt = none) (hreplaced : Replaced h as)
    (hgood : ∀ a ∈ as, a.failed = true → a.result = [] ∧ a.InTime h t₀) (d : ReadDone β) (e : ε) :
    read h t₀ as ≠ .returned d (some (.inner (.transport e))) := by
  intro hret
  obtain ⟨a, ha, -, herr, hwait⟩ := readLoop_transport hret
  have hfailed : a.failed = true := by rw [Attempt.failed, herr]
  obtain ⟨hdata, hin⟩ := hgood a ha hfailed
  obtain ⟨s, hs, hlt, -⟩ := hreplaced a ha hfailed
  have hwaits := (waits_iff_inTime hlive ⟨s, hs, hlt⟩).mpr hin a.tie
  rw [show a.withTie a.tie = a from rfl, hwait hdata] at hwaits
  cases hwaits

end Torn

/-- **A transport error surfaces after a wait exactly if it comes without data.** On a wrapper that
is not abandoned, with every failing inner replaced within `ResumeRetryWindow` of its failure, the
bridge sees no transport error as long as the inners fail without data, and fail and are replaced
before the `Read` is `ResumeRetryWindow` old. A `Read` goes past no other failure. -/
theorem error_after_wait_iff (h : Lifetime) :
    (∀ t₀ (as : List (Attempt (List β) ε)) d e,
      read h t₀ as = .returned d (some (.inner (.transport e))) →
      ∃ a, (readPasses h (t₀ + resumeRetryWindow) as).getLast? = some a ∧
        a.err = some (.transport e) ∧
        ((a.entersWait = true ∧ a.waits h (t₀ + resumeRetryWindow) = false) ↔ a.result = [])) ∧
    (∀ calls : List (ℕ × List (Attempt (List β) ε) × Bool), h.abandonedAt = none →
      (∀ c ∈ calls, Replaced h c.2.1) →
      (∀ c ∈ calls, ∀ a ∈ c.2.1, a.failed = true → a.result = [] ∧ a.InTime h c.1) →
      ∀ e, (copyAndDone h calls).2 ≠ some (.readFailed (.inner (.transport e)))) ∧
    (∀ t₀ (a : Attempt (List β) ε) e, h.abandonedAt = none → a.err = some (.transport e) →
      Replaced h [a] →
      (ReadGoesOn h (t₀ + resumeRetryWindow) a ↔ a.result = [] ∧ a.InTime h t₀)) := by
  refine ⟨fun t₀ as d e hret => ?_, fun calls hlive hreplaced hgood e => ?_,
    fun t₀ a e hlive herr hreplaced => ?_⟩
  · obtain ⟨a, -, hlast, herr, hwait⟩ := readLoop_transport hret
    have henters : a.entersWait = true ↔ a.result = [] := by
      simp [Attempt.entersWait, Attempt.failed, herr]
    exact ⟨a, hlast, herr, fun h => henters.mp h.1, fun hdata => ⟨henters.mpr hdata, hwait hdata⟩⟩
  · induction calls with
    | nil => exact nofun
    | cons c calls ih =>
      obtain ⟨t₀, as, taken⟩ := c
      have hcall := read_not_transport hlive (hreplaced _ List.mem_cons_self)
        (hgood _ List.mem_cons_self)
      rw [copyAndDone]
      cases hread : read h t₀ as with
      | blocked d => exact nofun
      | returned d err =>
        by_cases hwrite : d.bytes ≠ [] ∧ ¬ taken = true
        · simp only [if_pos hwrite]
          exact nofun
        · simp only [if_neg hwrite]
          cases err with
          | none =>
            exact ih (fun c hc => hreplaced c (List.mem_cons_of_mem _ hc))
              fun c hc => hgood c (List.mem_cons_of_mem _ hc)
          | some err =>
            intro heq
            cases heq
            exact hcall d e hread
  · obtain ⟨s, hs, hlt, -⟩ := hreplaced a List.mem_cons_self (by rw [Attempt.failed, herr])
    exact readGoesOn_iff_inTime hlive herr ⟨s, hs, hlt⟩

/-- Of the two passes of a `Read` that is cancelled at 40 seconds only the first has failed. -/
theorem cancelled_failed {captureAt : ℕ} {a : Attempt (List ℕ) Unit}
    (ha : a ∈ [cancelled captureAt, delivered]) (hfailed : a.failed = true) :
    a = cancelled captureAt := by
  rcases List.mem_cons.mp ha with rfl | ha
  · rfl
  · rw [List.mem_singleton.mp ha] at hfailed
    cases hfailed

/-- The inner it was on is replaced at that very moment. -/
theorem cancelled_replaced {captureAt : ℕ} (hc : captureAt < 40 * second) :
    Replaced swappedAt40 [cancelled captureAt, delivered] := by
  intro a ha hfailed
  obtain rfl := cancelled_failed ha hfailed
  exact ⟨40 * second, by decide, hc, Nat.lt_add_of_pos_right (by decide)⟩

/-- The `Read` that was called at 20 seconds goes on to the new inner. -/
theorem cancelled_not_torn :
    (copyAndDone swappedAt40 [(20 * second, [cancelled (20 * second), delivered], true)]).2 ≠
      some (.readFailed (.inner (.transport ()))) := by
  refine (error_after_wait_iff swappedAt40).2.1 _ rfl ?_ ?_ ()
  · intro c hc
    rw [List.mem_singleton.mp hc]
    exact cancelled_replaced (by decide)
  · intro c hc a ha hfailed
    rw [List.mem_singleton.mp hc] at ha ⊢
    obtain rfl := cancelled_failed ha hfailed
    refine ⟨rfl, by decide, fun s hs => ?_⟩
    obtain rfl : 40 * second = s := Option.some.inj hs
    decide

/-- A pass that delivers a byte together with the error of the connection, one second before the
inner is replaced. -/
def byteWithError : Attempt (List ℕ) Unit :=
  ⟨35 * second, [7], some (.transport ()), 39 * second, true⟩

/-- **The bridge ends although the inner is replaced in its window.** A byte comes together with the
error, where a wait would have found the new inner; and a `Read` that was called at 5 seconds is
cancelled by the replacement itself, at 40 seconds. -/
theorem torn_down :
    (copyAndDone swappedAt40 [(35 * second, [byteWithError], true)] =
        ([[7]], some (.readFailed (.inner (.transport ())))) ∧
      Replaced swappedAt40 [byteWithError] ∧
      byteWithError.waits swappedAt40 (35 * second + resumeRetryWindow) = true) ∧
    (copyAndDone swappedAt40 [(5 * second, [cancelled (5 * second), delivered], true)] =
        ([], some (.readFailed (.inner (.transport ())))) ∧
      Replaced swappedAt40 [cancelled (5 * second), delivered]) ∧
    swappedAt40.abandonedAt = none := by
  refine ⟨⟨rfl, fun a ha _ => ?_, rfl⟩, ⟨rfl, cancelled_replaced (by decide)⟩, rfl⟩
  rw [List.mem_singleton.mp ha]
  exact ⟨40 * second, by decide, by decide, by decide⟩

end OutRelayAgent.Stream
