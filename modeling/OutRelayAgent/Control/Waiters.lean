import OutRelayAgent.Lib.Threads
import OutRelayAgent.Lib.Mailbox

/-!
# Waiters: who gets which control frame

The control reader hands `CANDIDATE_ANSWER` and the mode notices `STREAM_READY` / `ALLOC_GRANTED` to
per-stream waiters: `registerAnswerWaiter`, `deliverAnswer` (`promote.go:241-267`) and
`RegisterStreamModeWaiter`, `CancelStreamModeWaiter`, `deliverMode`, `WaitForStreamMode`
(`promote.go:289-361`). Both are a map from stream ids to channels with room for one value, under
`p2pMu`, and sends that never block.

* **A table** (`Lib.Mailboxes`) is such a map with its channels, and a record of what was delivered
  to each of them, whether it found room or was dropped ("waiter full").
* **`deliverAnswer`** looks the channel up and removes the entry in one section, and sends in
  another step. **`deliverMode`** leaves the entry in place.
* **A stream** registers its mode waiter before the frame that makes the relay answer, then calls
  `WaitForStreamMode` or, when that frame could not be written, `CancelStreamModeWaiter`: `Dial`
  with `runConsumer` (`session.go:324-355`, `main.go:396-408`), `handleIncoming`
  (`session.go:924-950`). Two streams never have the same id (`freshId`).
* Any number of deliveries may be under way at once.

`routed`: an answer channel gets at most one answer, one for its own stream, and always has room for
it; `WaitForStreamMode` returns through its channel what was delivered first for its id, and leaves
no entry behind.
-/

namespace OutRelayAgent.Waiters

open Lib

/-- A channel, by its number in the table. -/
abbrev Chan := ℕ

/-- A `CANDIDATE_ANSWER`. -/
structure Answer (ID κ : Type) where
  streamId : ID
  candidates : κ

/-- `streamModeNotice`: the grant of forward mode, or `none` for splice mode. -/
abbrev Notice (γ : Type) := Option γ

structure Shared (ID κ γ : Type) where
  answers : Mailboxes ID (Answer ID κ)
  modes : Mailboxes ID (Notice γ)

/-- How a call of `WaitForStreamMode` ended. -/
inductive Result (γ : Type)
  /-- There was no waiter. -/
  | unregistered
  /-- Through the channel. -/
  | received (ch : Chan) (n : Notice γ)
  /-- `ctx` fired. -/
  | expired

inductive Task (ID κ γ : Type)
  | done
  /-- `Promote` -/
  | promote (id : ID)
  | recvAnswer (ch : Chan)
  | deliverAnswer (a : Answer ID κ)
  | answerFound (a : Answer ID κ) (ch : Chan)
  /-- `Dial` or `handleIncoming` -/
  | stream (id : ID)
  | streamReady (id : ID)
  /-- `WaitForStreamMode` -/
  | waitMode (id : ID)
  | waiting (id : ID) (ch : Chan)
  /-- The deferred `CancelStreamModeWaiter` is still to run. -/
  | leaving (id : ID) (r : Result γ)
  | returned (id : ID) (r : Result γ)
  | deliverMode (id : ID) (n : Notice γ)
  | modeFound (id : ID) (n : Notice γ) (ch : Chan)

inductive Effect (ID κ γ : Type)
  | nothing
  | registerAnswer (id : ID)
  | takeAnswer (id : ID)
  | sendAnswer (ch : Chan) (a : Answer ID κ)
  | recvAnswer (ch : Chan)
  | registerMode (id : ID)
  | cancelMode (id : ID)
  | sendMode (ch : Chan) (id : ID) (n : Notice γ)
  | recvMode (ch : Chan)

/-- Whether a call goes on, or its write fails or its context fires. -/
inductive Choice
  | ok
  | err

variable {ID κ γ : Type} [DecidableEq ID]

def effect : Effect ID κ γ → Shared ID κ γ → Shared ID κ γ
  | .nothing, s => s
  | .registerAnswer id, s => { s with answers := s.answers.register id }
  | .takeAnswer id, s => { s with answers := s.answers.remove id }
  | .sendAnswer ch a, s => { s with answers := s.answers.send ch a.streamId a }
  | .recvAnswer ch, s => { s with answers := s.answers.receive ch }
  | .registerMode id, s => { s with modes := s.modes.register id }
  | .cancelMode id, s => { s with modes := s.modes.remove id }
  | .sendMode ch id n, s => { s with modes := s.modes.send ch id n }
  | .recvMode ch, s => { s with modes := s.modes.receive ch }

/-- One step of a goroutine. -/
def next (s : Shared ID κ γ) : Task ID κ γ → Choice → Option (Task ID κ γ × Effect ID κ γ)
  | .promote id, .ok => some (.recvAnswer s.answers.next, .registerAnswer id)
  | .recvAnswer ch, .ok =>
    if (s.answers.buf ch).isSome then some (.done, .recvAnswer ch) else none
  | .recvAnswer _, .err => some (.done, .nothing)
  | .deliverAnswer a, .ok =>
    match s.answers.pending a.streamId with
    | some ch => some (.answerFound a ch, .takeAnswer a.streamId)
    | none => some (.done, .nothing)
  | .answerFound a ch, .ok => some (.done, .sendAnswer ch a)
  | .stream id, .ok => some (.streamReady id, .registerMode id)
  | .streamReady id, .ok => some (.waitMode id, .nothing)
  | .streamReady id, .err => some (.done, .cancelMode id)
  | .waitMode id, .ok =>
    match s.modes.pending id with
    | some ch => some (.waiting id ch, .nothing)
    | none => some (.returned id .unregistered, .nothing)
  | .waiting id ch, .ok =>
    match s.modes.buf ch with
    | some n => some (.leaving id (.received ch n), .recvMode ch)
    | none => none
  | .waiting id _, .err => some (.leaving id .expired, .nothing)
  | .leaving id r, .ok => some (.returned id r, .cancelMode id)
  | .deliverMode id n, .ok =>
    match s.modes.pending id with
    | some ch => some (.modeFound id n ch, .nothing)
    | none => some (.done, .nothing)
  | .modeFound id n ch, .ok => some (.done, .sendMode ch id n)
  | _, _ => none

def entry (_ : Shared ID κ γ) : Task ID κ γ → Bool
  | .promote _ | .deliverAnswer _ | .stream _ | .deliverMode _ _ => true
  | _ => false

def program (ID κ γ : Type) [DecidableEq ID] :
    Program (Shared ID κ γ) (Task ID κ γ) Choice (Effect ID κ γ) where
  idle := .done
  entry := entry
  next := next
  effect := effect

/-- `EnableP2P` makes the two maps. -/
def initial : Shared ID κ γ := ⟨.empty, .empty⟩

def machine (ID κ γ : Type) [DecidableEq ID] :
    Machine (Program.Pool (Shared ID κ γ) (Task ID κ γ)) (Program.Act (Task ID κ γ) Choice) :=
  (program ID κ γ).machine initial

/-- A stream registers a mode waiter under an id that no stream had before. -/
def freshId (s : Shared ID κ γ) (t : Task ID κ γ) (_ : Choice) : Bool :=
  match t with
  | .stream id => decide (∀ ch < s.modes.next, s.modes.owner ch ≠ some id)
  | _ => true

/-! ## What a step can do -/

inductive Moves (s : Shared ID κ γ) : Task ID κ γ → Task ID κ γ → Effect ID κ γ → Prop
  | promotes {id} : Moves s (.promote id) (.recvAnswer s.answers.next) (.registerAnswer id)
  | answered {ch} : Moves s (.recvAnswer ch) .done (.recvAnswer ch)
  | unanswered {ch} : Moves s (.recvAnswer ch) .done .nothing
  | answerFinds {a ch} : s.answers.pending a.streamId = some ch →
      Moves s (.deliverAnswer a) (.answerFound a ch) (.takeAnswer a.streamId)
  | answerDropped {a} : Moves s (.deliverAnswer a) .done .nothing
  | answerSent {a ch} : Moves s (.answerFound a ch) .done (.sendAnswer ch a)
  | registers {id} : Moves s (.stream id) (.streamReady id) (.registerMode id)
  | waits {id} : Moves s (.streamReady id) (.waitMode id) .nothing
  | cancels {id} : Moves s (.streamReady id) .done (.cancelMode id)
  | finds {id ch} : s.modes.pending id = some ch → Moves s (.waitMode id) (.waiting id ch) .nothing
  | misses {id} : s.modes.pending id = none →
      Moves s (.waitMode id) (.returned id .unregistered) .nothing
  | receives {id ch n} : s.modes.buf ch = some n →
      Moves s (.waiting id ch) (.leaving id (.received ch n)) (.recvMode ch)
  | expires {id ch} : Moves s (.waiting id ch) (.leaving id .expired) .nothing
  | returns {id r} : Moves s (.leaving id r) (.returned id r) (.cancelMode id)
  | modeFinds {id n ch} : s.modes.pending id = some ch →
      Moves s (.deliverMode id n) (.modeFound id n ch) .nothing
  | modeDropped {id n} : Moves s (.deliverMode id n) .done .nothing
  | modeSent {id n ch} : Moves s (.modeFound id n ch) .done (.sendMode ch id n)

variable {s : Shared ID κ γ} {t t' u : Task ID κ γ} {e : Effect ID κ γ} {c : Choice}

omit [DecidableEq ID] in
theorem next_moves (h : next s t c = some (t', e)) : Moves s t t' e := by
  unfold next at h
  split at h
  case h_1 => cases h; exact .promotes
  case h_2 =>
    split at h <;> cases h
    exact .answered
  case h_3 => cases h; exact .unanswered
  case h_4 =>
    split at h <;> cases h
    · exact .answerFinds ‹_›
    · exact .answerDropped
  case h_5 => cases h; exact .answerSent
  case h_6 => cases h; exact .registers
  case h_7 => cases h; exact .waits
  case h_8 => cases h; exact .cancels
  case h_9 =>
    split at h <;> cases h
    · exact .finds ‹_›
    · exact .misses ‹_›
  case h_10 =>
    split at h <;> cases h
    exact .receives ‹_›
  case h_11 => cases h; exact .expires
  case h_12 => cases h; exact .returns
  case h_13 =>
    split at h <;> cases h
    · exact .modeFinds ‹_›
    · exact .modeDropped
  case h_14 => cases h; exact .modeSent
  case h_15 => cases h

/-! ## Answers -/

/-- The channel a delivery of an answer has taken. -/
def Task.answerChan : Task ID κ γ → Option Chan
  | .answerFound _ ch => some ch
  | _ => none

def AnswerTaken (s : Shared ID κ γ) : Task ID κ γ → Prop
  | .answerFound a ch => s.answers.Taken ch a.streamId
  | _ => True

def AnswersApart (t u : Task ID κ γ) : Prop := ∀ ch, t.answerChan = some ch → u.answerChan ≠ some ch

section

omit [DecidableEq ID]

theorem AnswersApart.symm (h : AnswersApart t u) : AnswersApart u t := fun ch hu ht => h ch ht hu

/-- A delivery takes a channel that is in the map, so no other delivery has it. -/
theorem answersApart_step (hu : AnswerTaken s u) (hm : Moves s t t' e) : AnswersApart t' u := by
  intro ch hch huch
  cases hm with
  | answerFinds hfound =>
    obtain rfl : _ = ch := by simpa [Task.answerChan] using hch
    cases u with
    | answerFound b ch' =>
      obtain rfl : ch' = _ := by simpa [Task.answerChan] using huch
      exact hu.absent _ hfound
    | _ => cases huch
  | _ => cases hch

end

theorem single_step (hG : s.answers.Single) (ht : AnswerTaken s t) (hm : Moves s t t' e) :
    (effect e s).answers.Single := by
  cases hm with
  | promotes => exact hG.register _
  | answered => exact hG.receive _
  | answerFinds => exact hG.remove _
  | answerSent => exact hG.send ht _
  | _ => exact hG

theorem taken_step (hG : s.answers.Single) (hm : Moves s t t' e) : AnswerTaken (effect e s) t' := by
  cases hm with
  | answerFinds hch => exact hG.taken hch
  | _ => trivial

theorem taken_other (hG : s.answers.Single) (hu : AnswerTaken s u) (hK : AnswersApart t u)
    (hm : Moves s t t' e) : AnswerTaken (effect e s) u := by
  cases u with
  | answerFound a ch =>
    cases hm with
    | promotes => exact hu.register hG.toRecorded _
    | answered => exact hu.receive _
    | answerFinds => exact hu.remove _
    | answerSent =>
      rename_i a' ch'
      have hne : ch ≠ ch' := by
        rintro rfl
        exact hK ch rfl rfl
      exact hu.send hne _ _
    | _ => exact hu
  | _ => trivial

theorem answers_sound :
    (program ID κ γ).Sound initial (fun _ _ _ => true) (fun s => s.answers.Single) AnswerTaken
      AnswersApart where
  init := .empty
  idle := ⟨trivial, nofun⟩
  start := by
    intro s t _ he
    cases t <;> trivial
  start_other := by
    intro s t u he _
    have hnone : t.answerChan = none := by
      cases t <;> first | rfl | simp [program, entry] at he
    have hapart : AnswersApart t u := fun ch hch => by simp [hnone] at hch
    exact ⟨hapart, hapart.symm⟩
  step := fun hG ht _ hn => ⟨single_step hG ht (next_moves hn), taken_step hG (next_moves hn)⟩
  other := by
    intro s t u c t' e hG _ hu hK _ hn
    have hapart := answersApart_step hu (next_moves hn)
    exact ⟨taken_other hG hu hK (next_moves hn), hapart, hapart.symm⟩

/-! ## Modes -/

/-- No two channels were registered under one id. -/
structure ModesOk (s : Shared ID κ γ) : Prop extends s.modes.Recorded where
  single : ∀ id ch ch', s.modes.owner ch = some id → s.modes.owner ch' = some id → ch = ch'

/-- The stream that has registered a mode waiter. -/
def Task.modeId : Task ID κ γ → Option ID
  | .streamReady id | .waitMode id | .waiting id _ | .leaving id _ | .returned id _ => some id
  | _ => none

/-- What the result of `WaitForStreamMode` says about the deliveries. -/
def FirstNotice (s : Shared ID κ γ) (id : ID) : Result γ → Prop
  | .received ch n => s.modes.owner ch = some id ∧ (s.modes.sent ch).head? = some (id, n)
  | _ => ∃ ch, s.modes.owner ch = some id

/-- What a stream relies on between its registration and the return of `WaitForStreamMode`. -/
def InMode (s : Shared ID κ γ) : Task ID κ γ → Prop
  | .streamReady id | .waitMode id =>
    ∃ ch, s.modes.pending id = some ch ∧ s.modes.Untouched ch
  | .waiting id ch => s.modes.owner ch = some id ∧ s.modes.Untouched ch
  | .leaving id r => FirstNotice s id r
  | .returned id r => FirstNotice s id r ∧ s.modes.pending id = none
  | .modeFound id _ ch => s.modes.owner ch = some id
  | _ => True

def ModesApart (t u : Task ID κ γ) : Prop := ∀ id, t.modeId = some id → u.modeId ≠ some id

section

omit [DecidableEq ID]

theorem ModesApart.symm (h : ModesApart t u) : ModesApart u t := fun id hu ht => h id ht hu

theorem FirstNotice.owner {id : ID} {r : Result γ} (h : FirstNotice s id r) :
    ∃ ch, s.modes.owner ch = some id := by
  cases r with
  | received ch n => exact ⟨ch, h.1⟩
  | _ => exact h

/-- A stream that has registered has a channel. -/
theorem InMode.owner (hG : ModesOk s) (h : InMode s t) {id : ID} (hid : t.modeId = some id) :
    ∃ ch, s.modes.owner ch = some id := by
  cases t <;> simp only [Task.modeId, Option.some.injEq, reduceCtorEq] at hid <;> subst hid
  case streamReady id =>
    obtain ⟨ch, hch, -⟩ := h
    exact ⟨ch, hG.pending id ch hch⟩
  case waitMode id =>
    obtain ⟨ch, hch, -⟩ := h
    exact ⟨ch, hG.pending id ch hch⟩
  case waiting id ch => exact ⟨ch, h.1⟩
  case leaving id r => exact FirstNotice.owner h
  case returned id r => exact FirstNotice.owner h.1

/-- What a stream relies on, carried over to a later table. -/
theorem InMode.mono {s' : Shared ID κ γ} (hG : ModesOk s) (h : InMode s t)
    (hpending : ∀ id, t.modeId = some id → s'.modes.pending id = s.modes.pending id)
    (howner : ∀ ch id, s.modes.owner ch = some id → s'.modes.owner ch = some id)
    (huntouched : ∀ ch id, t.modeId = some id → s.modes.owner ch = some id →
      s.modes.Untouched ch → s'.modes.Untouched ch)
    (hhead : ∀ ch x, (s.modes.sent ch).head? = some x → (s'.modes.sent ch).head? = some x) :
    InMode s' t := by
  have hfirst : ∀ id r, FirstNotice s id r → FirstNotice s' id r := by
    intro id r hr
    cases r with
    | received ch n => exact ⟨howner ch id hr.1, hhead ch _ hr.2⟩
    | _ =>
      obtain ⟨ch, hch⟩ := hr
      exact ⟨ch, howner ch id hch⟩
  cases t with
  | streamReady id | waitMode id =>
    obtain ⟨ch, hch, hun⟩ := h
    exact ⟨ch, (hpending id rfl).trans hch, huntouched ch id rfl (hG.pending id ch hch) hun⟩
  | waiting id ch => exact ⟨howner ch id h.1, huntouched ch id rfl h.1 h.2⟩
  | leaving id r => exact hfirst id r h
  | returned id r => exact ⟨hfirst id r h.1, (hpending id rfl).trans h.2⟩
  | modeFound id n ch => exact howner ch id h
  | _ => trivial

theorem modesApart_step (hG : ModesOk s) (hu : InMode s u) (hK : ModesApart t u)
    (hfresh : ∀ id, t = .stream id → ∀ ch < s.modes.next, s.modes.owner ch ≠ some id)
    (hm : Moves s t t' e) : ModesApart t' u := by
  intro id hid huid
  cases hm with
  | registers =>
    obtain rfl : _ = id := by simpa [Task.modeId] using hid
    obtain ⟨ch, hch⟩ := hu.owner hG huid
    exact hfresh _ rfl ch (hG.owner ch _ hch) hch
  | waits | finds | misses | receives | expires | returns => exact hK id hid huid
  | _ => cases hid

end

/-- Registering a new id keeps one channel per id. -/
theorem ModesOk.register (hG : ModesOk s) {id : ID}
    (hfresh : ∀ ch < s.modes.next, s.modes.owner ch ≠ some id) :
    ModesOk (effect (.registerMode id) s) where
  toRecorded := hG.toRecorded.register id
  single id' ch ch' hch hch' := by
    have hold : ∀ ch, s.modes.owner ch = some id → False := fun ch hch =>
      hfresh ch (hG.owner ch id hch) hch
    rcases Mailboxes.register_owner_cases hch with ⟨hnew, hid⟩ | hbefore
    · rcases Mailboxes.register_owner_cases hch' with ⟨hnew', -⟩ | hbefore'
      · exact hnew.trans hnew'.symm
      · exact (hold ch' (hid ▸ hbefore')).elim
    · rcases Mailboxes.register_owner_cases hch' with ⟨-, hid⟩ | hbefore'
      · exact (hold ch (hid ▸ hbefore)).elim
      · exact hG.single id' ch ch' hbefore hbefore'

theorem modesOk_step (hG : ModesOk s) (ht : InMode s t) (hD : freshId s t c = true)
    (hm : Moves s t t' e) : ModesOk (effect e s) := by
  cases hm with
  | registers => exact hG.register (by simpa [freshId] using hD)
  | cancels => exact ⟨hG.toRecorded.remove _, hG.single⟩
  | returns => exact ⟨hG.toRecorded.remove _, hG.single⟩
  | receives => exact ⟨hG.toRecorded.receive _, hG.single⟩
  | modeSent => exact ⟨hG.toRecorded.send ht _, hG.single⟩
  | _ => exact ⟨hG.toRecorded, hG.single⟩

theorem inMode_step (hG : ModesOk s) (ht : InMode s t) (hm : Moves s t t' e) :
    InMode (effect e s) t' := by
  cases hm with
  | registers =>
    rename_i id
    refine ⟨s.modes.next, by simp [effect, Mailboxes.register], ?_⟩
    -- The new channel is empty and nothing was sent to it.
    have hnew := hG.fresh _ (Nat.le_refl _)
    show s.modes.buf _ = (s.modes.sent _).head?.map Prod.snd
    rw [hnew.1, hnew.2]
    rfl
  | waits => exact ht
  | finds hch =>
    obtain ⟨ch', hch', hun⟩ := ht
    obtain rfl := Option.some.inj (hch.symm.trans hch')
    exact ⟨hG.pending _ _ hch, hun⟩
  | misses hnone =>
    obtain ⟨ch, hch, -⟩ := ht
    rw [hnone] at hch
    cases hch
  | receives hbuf => exact ⟨ht.1, ht.2.head hG.toRecorded ht.1 hbuf⟩
  | expires => exact ⟨_, ht.1⟩
  | returns =>
    rename_i id r
    refine ⟨?_, Mailboxes.remove_pending_self⟩
    cases r <;> exact ht
  | modeFinds hch => exact hG.pending _ _ hch
  | _ => trivial

theorem inMode_other (hG : ModesOk s) (ht : InMode s t) (hu : InMode s u) (hK : ModesApart t u)
    (hD : freshId s t c = true) (hm : Moves s t t' e) : InMode (effect e s) u := by
  cases hm with
  | registers =>
    rename_i id
    have hfresh : ∀ ch < s.modes.next, s.modes.owner ch ≠ some id := by simpa [freshId] using hD
    refine hu.mono hG (fun id' hid' => Mailboxes.register_pending_of_ne ?_)
      (fun ch id' hch => hG.toRecorded.register_owner hch) (fun _ _ _ _ h => h) (fun _ _ h => h)
    rintro rfl
    obtain ⟨ch, hch⟩ := hu.owner hG hid'
    exact hfresh ch (hG.owner ch id' hch) hch
  | cancels | returns =>
    refine hu.mono hG (fun id' hid' => Mailboxes.remove_pending_of_ne ?_) (fun _ _ h => h)
      (fun _ _ _ _ h => h) (fun _ _ h => h)
    rintro rfl
    exact hK id' rfl hid'
  | receives =>
    rename_i id ch n hbuf
    refine hu.mono hG (fun _ _ => rfl) (fun _ _ h => h) (fun ch' id' hid' hch' hun => ?_)
      (fun _ _ h => h)
    -- The channel is `id`'s, and the other stream has another id.
    refine hun.receive_of_ne ?_
    rintro rfl
    obtain rfl := Option.some.inj (ht.1.symm.trans hch')
    exact hK id rfl hid'
  | modeSent =>
    exact hu.mono hG (fun _ _ => rfl) (fun _ _ h => h) (fun _ _ _ _ h => h.send _ _ _)
      (fun _ _ h => Mailboxes.send_head h _ _ _)
  | _ => exact hu

theorem modes_sound :
    (program ID κ γ).Sound initial freshId ModesOk InMode ModesApart where
  init := ⟨.empty, nofun⟩
  idle := ⟨trivial, nofun⟩
  start := by
    intro s t _ he
    cases t <;> trivial
  start_other := by
    intro s t u he _
    have hnone : t.modeId = none := by
      cases t <;> first | rfl | simp [program, entry] at he
    have hapart : ModesApart t u := fun id hid => by simp [hnone] at hid
    exact ⟨hapart, hapart.symm⟩
  step := fun hG ht hD hn =>
    ⟨modesOk_step hG ht hD (next_moves hn), inMode_step hG ht (next_moves hn)⟩
  other := by
    intro s t u c t' e hG ht hu hK hD hn
    have hapart := modesApart_step hG hu hK
      (by rintro id rfl; simpa [freshId] using hD) (next_moves hn)
    exact ⟨inMode_other hG ht hu hK hD (next_moves hn), hapart, hapart.symm⟩

/-! ## Routing -/

variable {p : Program.Pool (Shared ID κ γ) (Task ID κ γ)}

/-- What the waiters promise of a state. -/
structure Routed (p : Program.Pool (Shared ID κ γ) (Task ID κ γ)) : Prop where
  /-- An answer channel gets at most one answer. -/
  one_answer : ∀ ch, (p.shared.answers.sent ch).length ≤ 1
  /-- The answer is for the stream the channel was registered for. -/
  own_answer : ∀ ch id a, (id, a) ∈ p.shared.answers.sent ch → p.shared.answers.owner ch = some id
  /-- A delivery of an answer finds room in the channel it looked up. -/
  answer_fits : ∀ i a ch, p.threads i = .answerFound a ch → p.shared.answers.buf ch = none
  /-- What `WaitForStreamMode` received is what was delivered first, for its id, to the one channel
  registered under its id, and that is not changed by anything that happens later. -/
  first_notice : ∀ i id ch n, p.threads i = .returned id (.received ch n) →
    (∀ ch', p.shared.modes.owner ch' = some id ↔ ch' = ch) ∧
    (p.shared.modes.sent ch).head? = some (id, n) ∧
    ∀ p', (machine ID κ γ).ReachFrom p p' → p'.threads i = .returned id (.received ch n)
  /-- Once `WaitForStreamMode` has returned, there is no entry for its id. -/
  no_entry : ∀ i id r, p.threads i = .returned id r → p.shared.modes.pending id = none

/-- **The waiters route every frame to its stream**, in every run in which streams have distinct
ids. -/
theorem routed (h : (machine ID κ γ).ReachWhile (fun p a => Program.allowed freshId p a = true) p) :
    Routed p := by
  have hanswers := Program.invariant_reach answers_sound h.reach
  have hmodes := Program.invariant modes_sound h
  refine ⟨hanswers.shared.once, hanswers.shared.sent, ?_, ?_, ?_⟩
  · intro i a ch hi
    have ht := hanswers.thread i
    rw [hi] at ht
    exact ht.unused.2
  · intro i id ch n hi
    have ht := hmodes.thread i
    rw [hi] at ht
    obtain ⟨⟨howner, hhead⟩, -⟩ := ht
    refine ⟨fun ch' => ⟨fun hch' => ?_, ?_⟩, hhead, fun p' hr => ?_⟩
    · exact hmodes.shared.single id ch' ch hch' howner
    · rintro rfl
      exact howner
    · exact Program.final_thread (P := program ID κ γ) (t := .returned id (.received ch n))
        (fun _ _ => rfl) nofun (fun _ _ => rfl) h.reach hi hr
  · intro i id r hi
    have ht := hmodes.thread i
    rw [hi] at ht
    exact ht.2

/-- A grant and then `STREAM_READY` for stream 7 are delivered, and a notice for stream 8, before
stream 7 calls `WaitForStreamMode`. -/
def notices : List (Program.Act (Task ℕ Unit ℕ) Choice) :=
  [.start (.stream 7), .run 0 .ok, .start (.deliverMode 7 (some 3)), .run 1 .ok, .run 1 .ok,
   .start (.deliverMode 7 none), .run 2 .ok, .run 2 .ok,
   .start (.deliverMode 8 none), .run 3 .ok,
   .run 0 .ok, .run 0 .ok, .run 0 .ok, .run 0 .ok]

theorem routed_notices :
    ∃ p, (machine ℕ Unit ℕ).run (machine ℕ Unit ℕ).init notices = some p ∧
      p.threads 0 = .returned 7 (.received 0 (some 3)) ∧ Routed p :=
  ⟨_, rfl, rfl, routed (Machine.reachWhile_of_run (M := machine ℕ Unit ℕ)
    (C := Program.allowed freshId) notices rfl)⟩

end OutRelayAgent.Waiters
