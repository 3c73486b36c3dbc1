import OutRelayAgent.Control.Waiters

/-!
# The waiters that `Promote` leaves behind

Model of `Session.Promote` (`promote.go:389-456`) with the exits of `Promoter.Run`
(`promoter.go:65-128`), against the control reader's `deliverAnswer` (`promote.go:249-267`).

* **`Promote`** checks its arguments and that `EnableP2P` has made the map, registers a channel
  under the id of its stream, writes its offer, and waits for the answer or the end of its context.
  Then it compares the id, checks connectivity, and tells the relay, which may fail.
* **`deliverAnswer`** looks the channel up and removes the entry in one section, and sends in
  another step; without an entry the answer is reported.
* Any number of calls and of deliveries are under way at once, several for one stream as well: a
  later registration takes the place of an earlier one.
* Which candidates the offer carries has no influence on the table and is left out.

Nothing in `Promote` removes its entry: the comment on `RegisterStreamModeWaiter` asks callers of
the sibling table to cancel "so the map entry doesn't leak", and there is no such function for this
one.

* `promote_leaves_none`: in every run in which a call fails or is cancelled only after its entry has
  gone from the table (`prompt`), no call leaves an entry, every entry belongs to a call in
  progress, and an answer that comes too late has no waiter. Any other failing step leaves the
  entry.
* `offer_fails_leaks`: the offer cannot be written, and the answer finds a waiter nevertheless.
-/

namespace OutRelayAgent.Promote

open Lib
open Waiters (Answer Chan)

structure Shared (ID κ : Type) where
  /-- `pendingAnswers` is not `nil`. -/
  enabled : Bool
  answers : Mailboxes ID (Answer ID κ)

/-- What `Promote` returns. -/
inductive Outcome
  /-- `session: nil rs or engine` -/
  | nilArgument
  /-- `session: EnableP2P not called` -/
  | notEnabled
  /-- `p2p: send offer: %w` -/
  | sendOffer
  /-- `p2p: recv answer: %w` -/
  | recvAnswer
  /-- `p2p: answer stream_id mismatch: got %d, want %d` -/
  | mismatch
  /-- The error of `Engine.Check`. -/
  | check
  | promoted

inductive Task (ID κ : Type)
  | done
  | enableP2P
  /-- `Promote`, with arguments that are not `nil` or with one that is. -/
  | promote (id : ID) (arguments : Bool)
  | registering (id : ID)
  /-- In `SendOffer`. -/
  | offering (id : ID) (ch : Chan)
  /-- In `RecvAnswer`. -/
  | receiving (id : ID) (ch : Chan)
  | checking (id : ID) (ch : Chan) (a : Answer ID κ)
  /-- In `SendMigrate`. -/
  | migrating (id : ID) (ch : Chan)
  /-- With the channel that was registered, if any. -/
  | returned (id : ID) (ch : Option Chan) (o : Outcome)
  | deliverAnswer (a : Answer ID κ)
  | answerFound (a : Answer ID κ) (ch : Chan)
  /-- `session: CANDIDATE_ANSWER without waiter` -/
  | noWaiter (a : Answer ID κ)

inductive Effect (ID κ : Type)
  | nothing
  | enable
  | register (id : ID)
  | take (id : ID)
  | send (ch : Chan) (a : Answer ID κ)
  | receive (ch : Chan)

/-- Whether a call goes on, or its write, its check or its context fails. -/
inductive Choice
  | ok
  | err

variable {ID κ : Type} [DecidableEq ID]

def effect : Effect ID κ → Shared ID κ → Shared ID κ
  | .nothing, s => s
  | .enable, s => { s with enabled := true }
  | .register id, s => { s with answers := s.answers.register id }
  | .take id, s => { s with answers := s.answers.remove id }
  | .send ch a, s => { s with answers := s.answers.send ch a.streamId a }
  | .receive ch, s => { s with answers := s.answers.receive ch }

/-- One step of a goroutine. -/
def next (s : Shared ID κ) : Task ID κ → Choice → Option (Task ID κ × Effect ID κ)
  | .enableP2P, .ok => some (.done, .enable)
  | .promote id arguments, .ok =>
    if !arguments then some (.returned id none .nilArgument, .nothing)
    else if !s.enabled then some (.returned id none .notEnabled, .nothing)
    else some (.registering id, .nothing)
  | .registering id, .ok => some (.offering id s.answers.next, .register id)
  | .offering id ch, .ok => some (.receiving id ch, .nothing)
  | .offering id ch, .err => some (.returned id (some ch) .sendOffer, .nothing)
  | .receiving id ch, .ok =>
    match s.answers.buf ch with
    | some a => some (.checking id ch a, .receive ch)
    | none => none
  | .receiving id ch, .err => some (.returned id (some ch) .recvAnswer, .nothing)
  | .checking id ch a, c =>
    if a.streamId = id then
      match c with
      | .ok => some (.migrating id ch, .nothing)
      | .err => some (.returned id (some ch) .check, .nothing)
    else some (.returned id (some ch) .mismatch, .nothing)
  -- A failure is logged.
  | .migrating id ch, _ => some (.returned id (some ch) .promoted, .nothing)
  | .deliverAnswer a, .ok =>
    match s.answers.pending a.streamId with
    | some ch => some (.answerFound a ch, .take a.streamId)
    | none => some (.noWaiter a, .nothing)
  | .answerFound a ch, .ok => some (.done, .send ch a)
  | _, _ => none

def entry (_ : Shared ID κ) : Task ID κ → Bool
  | .enableP2P | .promote _ _ | .deliverAnswer _ => true
  | _ => false

def program (ID κ : Type) [DecidableEq ID] :
    Program (Shared ID κ) (Task ID κ) Choice (Effect ID κ) where
  idle := .done
  entry := entry
  next := next
  effect := effect

def initial : Shared ID κ := ⟨false, .empty⟩

def machine (ID κ : Type) [DecidableEq ID] :
    Machine (Program.Pool (Shared ID κ) (Task ID κ)) (Program.Act (Task ID κ) Choice) :=
  (program ID κ).machine initial

/-! ## The condition and the property -/

/-- A call fails to write its offer or gives up waiting only after its entry has gone: a delivery
has looked it up, or a later call has registered in its place. -/
def prompt (s : Shared ID κ) (t : Task ID κ) (c : Choice) : Bool :=
  match t, c with
  | .offering id ch, .err | .receiving id ch, .err => s.answers.pending id != some ch
  | _, _ => true

/-- The entry of a call that has yet to receive its answer. -/
def Task.awaits : Task ID κ → Option (ID × Chan)
  | .offering id ch | .receiving id ch => some (id, ch)
  | _ => none

/-- No call leaves its entry behind. -/
structure NoneLeft (p : Program.Pool (Shared ID κ) (Task ID κ)) : Prop where
  /-- A call that has returned has no entry. -/
  released : ∀ i id ch o, p.threads i = .returned id (some ch) o →
    p.shared.answers.pending id ≠ some ch
  /-- Every entry belongs to a call in progress, and no two to the same. -/
  in_progress : ∀ id ch, p.shared.answers.pending id = some ch →
    ∃ i, (p.threads i).awaits = some (id, ch)
  /-- An answer for a stream without a call in progress is reported. -/
  late : ∀ a, (∀ i ch, (p.threads i).awaits ≠ some (a.streamId, ch)) →
    next p.shared (.deliverAnswer a) .ok = some (.noWaiter a, .nothing)

/-! ## What a step can do -/

inductive Moves (s : Shared ID κ) : Task ID κ → Choice → Task ID κ → Effect ID κ → Prop
  | enables : Moves s .enableP2P .ok .done .enable
  | refuses {id args o} : Moves s (.promote id args) .ok (.returned id none o) .nothing
  | checks {id args} : Moves s (.promote id args) .ok (.registering id) .nothing
  | registers {id} : Moves s (.registering id) .ok (.offering id s.answers.next) (.register id)
  | offers {id ch} : Moves s (.offering id ch) .ok (.receiving id ch) .nothing
  | offerFails {id ch} :
      Moves s (.offering id ch) .err (.returned id (some ch) .sendOffer) .nothing
  | receives {id ch a} : s.answers.buf ch = some a →
      Moves s (.receiving id ch) .ok (.checking id ch a) (.receive ch)
  | givesUp {id ch} :
      Moves s (.receiving id ch) .err (.returned id (some ch) .recvAnswer) .nothing
  | connects {id ch a} : Moves s (.checking id ch a) .ok (.migrating id ch) .nothing
  | rejects {id ch a c o} : Moves s (.checking id ch a) c (.returned id (some ch) o) .nothing
  | migrates {id ch c} : Moves s (.migrating id ch) c (.returned id (some ch) .promoted) .nothing
  | finds {a ch} : s.answers.pending a.streamId = some ch →
      Moves s (.deliverAnswer a) .ok (.answerFound a ch) (.take a.streamId)
  | reports {a} : Moves s (.deliverAnswer a) .ok (.noWaiter a) .nothing
  | sends {a ch} : Moves s (.answerFound a ch) .ok .done (.send ch a)

variable {s : Shared ID κ} {t t' : Task ID κ} {c : Choice} {e : Effect ID κ}

theorem next_moves (h : next s t c = some (t', e)) : Moves s t c t' e := by
  unfold next at h
  split at h
  case h_1 => cases h; exact .enables
  case h_2 =>
    repeat' split at h
    all_goals cases h
    · exact .refuses
    · exact .refuses
    · exact .checks
  case h_3 => cases h; exact .registers
  case h_4 => cases h; exact .offers
  case h_5 => cases h; exact .offerFails
  case h_6 =>
    split at h <;> cases h
    exact .receives ‹_›
  case h_7 => cases h; exact .givesUp
  case h_8 =>
    repeat' split at h
    all_goals cases h
    · exact .connects
    · exact .rejects
    · exact .rejects
  case h_9 => cases h; exact .migrates
  case h_10 =>
    split at h <;> cases h
    · exact .finds ‹_›
    · exact .reports
  case h_11 => cases h; exact .sends
  case h_12 => cases h

/-! ## Entries that have gone -/

/-- A channel that was registered under `id` and is not there any more. -/
structure Gone (s : Shared ID κ) (id : ID) (ch : Chan) : Prop where
  owner : s.answers.owner ch = some id
  absent : s.answers.pending id ≠ some ch

/-- A channel in the table is empty. -/
structure Waiting (s : Shared ID κ) : Prop extends s.answers.Recorded where
  empty : ∀ id ch, s.answers.pending id = some ch → s.answers.buf ch = none

/-- What a call knows of its channel. -/
def Knows (s : Shared ID κ) : Task ID κ → Prop
  | .offering id ch | .receiving id ch => s.answers.owner ch = some id
  | .checking id ch _ | .migrating id ch | .returned id (some ch) _ => Gone s id ch
  | .answerFound a ch => Gone s a.streamId ch
  | _ => True

theorem Waiting.owner_effect (hG : Waiting s) {id : ID} {ch : Chan}
    (h : s.answers.owner ch = some id) (e : Effect ID κ) :
    (effect e s).answers.owner ch = some id := by
  cases e with
  | register id' => exact hG.register_owner h
  | _ => exact h

/-- What has gone does not come back. -/
theorem Gone.effect {id : ID} {ch : Chan} (h : Gone s id ch) (hG : Waiting s)
    (e : Effect ID κ) : Gone (effect e s) id ch := by
  refine ⟨hG.owner_effect h.owner e, fun hpending => ?_⟩
  cases e with
  | register id' =>
    rcases Mailboxes.register_pending_cases hpending with ⟨-, rfl⟩ | ⟨-, hold⟩
    · exact absurd (hG.owner _ _ h.owner) (Nat.lt_irrefl _)
    · exact h.absent hold
  | take id' => exact h.absent (Mailboxes.remove_pending_cases hpending).2
  | _ => exact h.absent hpending

theorem Knows.effect (h : Knows s t) (hG : Waiting s) (e : Effect ID κ) :
    Knows (effect e s) t := by
  cases t with
  | offering id ch | receiving id ch => exact hG.owner_effect h e
  | checking id ch a | migrating id ch => exact Gone.effect h hG e
  | returned id ch o =>
    cases ch with
    | none => trivial
    | some ch => exact Gone.effect h hG e
  | answerFound a ch => exact Gone.effect h hG e
  | _ => trivial

theorem waiting_step (hG : Waiting s) (ht : Knows s t) (hm : Moves s t c t' e) :
    Waiting (effect e s) := by
  cases hm with
  | registers =>
    refine ⟨hG.toRecorded.register _, fun id ch hch => ?_⟩
    rcases Mailboxes.register_pending_cases hch with ⟨-, rfl⟩ | ⟨-, hold⟩
    · exact (hG.fresh _ (Nat.le_refl _)).2
    · exact hG.empty id ch hold
  | finds =>
    exact ⟨hG.toRecorded.remove _,
      fun id ch hch => hG.empty id ch (Mailboxes.remove_pending_cases hch).2⟩
  | receives =>
    rename_i ch a hbuf
    refine ⟨hG.toRecorded.receive _, fun id ch' hch' => ?_⟩
    by_cases hne : ch' = ch
    · subst hne
      exact Mailboxes.receive_self
    · exact (Mailboxes.receive_of_ne hne).trans (hG.empty id ch' hch')
  | sends =>
    rename_i a ch
    refine ⟨hG.toRecorded.send ht.owner a, fun id ch' hch' => ?_⟩
    -- The channel has gone from the table, so the entry is another one.
    have hne : ch' ≠ ch := by
      rintro rfl
      have howner := (hG.pending id ch' hch').symm.trans ht.owner
      exact ht.absent (Option.some.inj howner ▸ hch')
    exact (Mailboxes.send_of_ne hne).1.trans (hG.empty id ch' hch')
  | _ => exact ⟨hG.toRecorded, hG.empty⟩

theorem knows_step (hG : Waiting s) (ht : Knows s t) (hD : prompt s t c = true)
    (hm : Moves s t c t' e) : Knows (effect e s) t' := by
  cases hm with
  | registers => exact Mailboxes.register_owner_self
  | offers => exact ht
  | offerFails | givesUp =>
    simp only [prompt, bne_iff_ne] at hD
    exact ⟨ht, hD⟩
  | receives hbuf =>
    refine ⟨ht, fun hpending => ?_⟩
    rw [hG.empty _ _ hpending] at hbuf
    cases hbuf
  | connects | rejects | migrates => exact ht
  | finds hch =>
    refine ⟨hG.pending _ _ hch, fun hpending => ?_⟩
    exact (Mailboxes.remove_pending_cases hpending).1 rfl
  | _ => trivial

theorem knows_sound :
    (program ID κ).Sound initial prompt Waiting Knows fun _ _ => True where
  init := ⟨.empty, nofun⟩
  idle := ⟨trivial, trivial⟩
  start := by
    intro s t _ he
    cases t <;> trivial
  start_other := fun _ _ => ⟨trivial, trivial⟩
  step := fun hG ht hD hn =>
    ⟨waiting_step hG ht (next_moves hn), knows_step hG ht hD (next_moves hn)⟩
  other := fun hG _ hu _ _ hn => ⟨hu.effect hG _, trivial, trivial⟩

/-! ## Entries and calls -/

/-- An entry is that of the call that has made the step, or it was there before and is not that of
the call. -/
theorem Moves.entry (hG : Waiting s) (hD : prompt s t c = true) (hm : Moves s t c t' e) {id : ID}
    {ch : Chan} (h : (effect e s).answers.pending id = some ch) :
    t'.awaits = some (id, ch) ∨ (s.answers.pending id = some ch ∧ t.awaits ≠ some (id, ch)) := by
  cases hm with
  | registers =>
    rcases Mailboxes.register_pending_cases h with ⟨rfl, rfl⟩ | ⟨-, hold⟩
    · exact .inl rfl
    · exact .inr ⟨hold, nofun⟩
  | finds => exact .inr ⟨(Mailboxes.remove_pending_cases h).2, nofun⟩
  | offers =>
    rename_i id' ch'
    by_cases heq : some (id', ch') = some (id, ch)
    · exact .inl heq
    · exact .inr ⟨h, heq⟩
  | offerFails | givesUp =>
    refine .inr ⟨h, fun heq => ?_⟩
    cases heq
    simp only [prompt, bne_iff_ne] at hD
    exact hD h
  | receives hbuf =>
    refine .inr ⟨h, fun heq => ?_⟩
    cases heq
    have hnone := hG.empty id ch h
    rw [hbuf] at hnone
    cases hnone
  | _ => exact .inr ⟨h, nofun⟩

variable {p p' : Program.Pool (Shared ID κ) (Task ID κ)}

/-- Every entry belongs to a call in progress. -/
theorem in_progress
    (h : (machine ID κ).ReachWhile (fun p a => Program.allowed prompt p a = true) p) :
    ∀ id ch, p.shared.answers.pending id = some ch → ∃ i, (p.threads i).awaits = some (id, ch) := by
  refine Machine.ReachWhile.invariant (M := machine ID κ)
    (I := fun p => ∀ id ch, p.shared.answers.pending id = some ch →
      ∃ i, (p.threads i).awaits = some (id, ch)) nofun ?_ h
  rintro p (t | ⟨i, c⟩) p' hr hi hD hst id ch hch
  · obtain ⟨-, rfl⟩ := Program.start_cases hst
    have hidle : p.threads p.count = .done :=
      Program.idle_of_count_le (P := program ID κ) (fun _ _ => rfl) hr.reach _ (Nat.le_refl _)
    exact Program.exists_update (Q := fun t : Task ID κ => t.awaits = some (id, ch))
      (hi id ch hch) (by rw [hidle]; nofun)
  · obtain ⟨t', e, hn, rfl⟩ := Program.run_cases hst
    have hG := (Program.invariant knows_sound hr).shared
    rcases (next_moves hn).entry hG hD hch with hown | ⟨hbefore, hother⟩
    · exact ⟨i, by simpa using hown⟩
    · exact Program.exists_update (Q := fun t : Task ID κ => t.awaits = some (id, ch))
        (hi id ch hbefore) hother

/-- **No `Promote` leaves an entry**, in every run in which calls fail only after their entries have
gone. A step by which a call fails before that leaves its entry. -/
theorem promote_leaves_none :
    (∀ p, (machine ID κ).ReachWhile (fun p a => Program.allowed prompt p a = true) p →
      NoneLeft p) ∧
    ∀ p i c p', (machine ID κ).step p (.run i c) = some p' →
      prompt p.shared (p.threads i) c = false → ¬ NoneLeft p' := by
  constructor
  · intro p h
    have hprogress := in_progress h
    refine ⟨fun i id ch o hi => ?_, hprogress, fun a hnone => ?_⟩
    · have ht := (Program.invariant knows_sound h).thread i
      rw [hi] at ht
      exact ht.absent
    · have hpending : p.shared.answers.pending a.streamId = none := by
        refine Option.eq_none_iff_forall_ne_some.mpr fun ch hch => ?_
        obtain ⟨i, hi⟩ := hprogress _ ch hch
        exact hnone i ch hi
      rw [next, hpending]
  · intro p i c p' hst hD hleft
    obtain ⟨t', e, hn, rfl⟩ := Program.run_cases hst
    have hm := next_moves hn
    generalize htask : p.threads i = t at hm hD
    cases hm with
    | offerFails | givesUp =>
      simp only [prompt, bne_eq_false_iff_eq] at hD
      exact hleft.released i _ _ _ (Function.update_self i _ _) hD
    | _ => cases hD

/-- The answer for stream 7 is looked up before its `Promote` is cancelled. -/
def answeredLate : List (Program.Act (Task ℕ Unit) Choice) :=
  [.start .enableP2P, .run 0 .ok, .start (.promote 7 true), .run 1 .ok, .run 1 .ok, .run 1 .ok,
   .start (.deliverAnswer ⟨7, ()⟩), .run 2 .ok, .run 1 .err, .run 2 .ok]

theorem answeredLate_leaves_none :
    ∃ p, (machine ℕ Unit).run (machine ℕ Unit).init answeredLate = some p ∧
      p.threads 1 = .returned 7 (some 0) .recvAnswer ∧ NoneLeft p :=
  ⟨_, rfl, rfl, promote_leaves_none.1 _ (Machine.reachWhile_of_run (M := machine ℕ Unit)
    (C := Program.allowed prompt) answeredLate rfl)⟩

/-- **A waiter that stays.** The offer for stream 7 cannot be written; the entry is still there when
`Promote` has returned, and an answer finds it. -/
theorem offer_fails_leaks :
    ∃ p, (machine ℕ Unit).run (machine ℕ Unit).init
        [.start .enableP2P, .run 0 .ok, .start (.promote 7 true), .run 1 .ok, .run 1 .ok,
         .run 1 .err] = some p ∧
      p.threads 1 = .returned 7 (some 0) .sendOffer ∧ p.shared.answers.pending 7 = some 0 ∧
      (∀ i, (p.threads i).awaits = none) ∧
      next p.shared (.deliverAnswer ⟨7, ()⟩) .ok =
        some (.answerFound ⟨7, ()⟩ 0, .take 7) ∧ ¬ NoneLeft p := by
  refine ⟨_, rfl, rfl, rfl, fun i => ?_, rfl, fun hleft => hleft.released 1 7 0 .sendOffer rfl rfl⟩
  match i with
  | 0 => rfl
  | 1 => rfl
  | _ + 2 => rfl

end OutRelayAgent.Promote
