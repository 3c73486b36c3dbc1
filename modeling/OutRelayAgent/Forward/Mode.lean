import OutRelayAgent.Lib.Machine

/-!
# The data path the two ends of a stream choose

After a stream is accepted the relay tells each end the mode, `STREAM_READY` for splice or
`ALLOC_GRANTED` for forward, on that end's control stream. Model of what the ends do with it:

* **Registering and waiting** are the same at both ends. `RegisterStreamModeWaiter` makes a channel
  of one place, if `EnableP2P` has been called; `deliverMode` puts the notice there, or drops it
  when there is no channel; `WaitForStreamMode` returns the grant, or `nil` for a splice notice, for
  a wait that timed out, and when there is no waiter (`promote.go:285-362`).
* **The consumer** dials forward on a grant, tears the stream down when it has no client TLS or the
  dial fails, and bridges the relay stream on `nil` (`main.go:396-437`).
* **The provider** accepts forward on a grant and tears the stream down when that fails. Without
  forward TLS, and on `nil`, it bridges the relay stream (`session.go:924-973`).
* `DialForward` can succeed when the provider is in `AcceptForward`, which returns a stream after
  that. It has no timeout of its own (`forward.go:158-226`).
* The relay sends both ends the same mode. Each notice arrives once, at any time, or never.

A wait that ends without a notice is taken as splice, on purpose ("falls back to splice instead of
hanging the stream open forever"). The ends do not tell each other what they chose.

* `ends_agree_iff`: the ends are on different paths exactly when their waits have ended differently,
  the provider's grant counting only if it has forward TLS. In splice mode that cannot be. A wait
  that does not time out returns the notice, so the ends disagree only if one of them timed out or
  had no waiter, or the provider has no forward TLS. A provider in `AcceptForward` whose consumer
  has given up is not told.
* `one_end_forward`: both ways of disagreeing.
-/

namespace OutRelayAgent.StreamMode

open Lib

/-- The mode the relay has chosen for the stream. -/
inductive Mode
  | splice
  | forward
  deriving DecidableEq

/-- What does not change while a stream is set up. -/
structure Config where
  mode : Mode
  /-- `EnableP2P` has been called. -/
  consumerP2P : Bool
  providerP2P : Bool
  /-- The consumer's `peerClientTLS` and the provider's `forwardServerTLS` are set. -/
  consumerTLS : Bool
  providerTLS : Bool

/-- Where an end stands. -/
inductive Pos
  | start
  /-- The waiter is registered if it is to be, and the stream is set up. -/
  | opened
  /-- In the `select` of `WaitForStreamMode`. -/
  | waiting
  /-- In `DialForward` or `AcceptForward`. -/
  | connecting
  /-- Bridging the relay stream. -/
  | onRelay
  /-- Bridging the forward stream. -/
  | onForward
  | closed
  deriving DecidableEq

/-- One end of the stream. -/
structure Side where
  pos : Pos := .start
  /-- The channel in `s.pendingMode`, with what has been delivered. -/
  waiter : Option (Option Mode) := none
  /-- The notice has arrived at this end. -/
  arrived : Bool := false
  /-- What `WaitForStreamMode` returned, `true` for a grant; no step reads it. -/
  granted : Option Bool := none
  /-- The context of `WaitForStreamMode` fired; no step reads it. -/
  timedOut : Bool := false

structure World where
  consumer : Side := {}
  provider : Side := {}
  /-- The forward connection is there. -/
  connected : Bool := false

inductive Choice
  | ok
  | err
  | timeout

inductive Act
  | consumer (c : Choice)
  | provider (c : Choice)
  | deliverConsumer
  | deliverProvider

/-- `deliverMode`. -/
def Side.deliver (s : Side) (mode : Mode) : Side :=
  match s.waiter with
  | some none => { s with arrived := true, waiter := some (some mode) }
  | _ => { s with arrived := true }

/-- `WaitForStreamMode` returns. -/
def Side.returns (s : Side) (after : Bool → Pos) (granted : Bool) : Side :=
  { s with pos := after granted, waiter := none, granted := some granted }

/-- What both ends do, `after` being where an end goes when its wait is over. -/
def sideNext (p2p : Bool) (after : Bool → Pos) (s : Side) : Choice → Option Side
  | .ok =>
    match s.pos, s.waiter with
    | .start, _ => some { s with pos := .opened, waiter := if p2p then some none else none }
    | .opened, none => some (s.returns after false)
    | .opened, some _ => some { s with pos := .waiting }
    | .waiting, some (some mode) => some (s.returns after (mode = .forward))
    -- The bridge ends.
    | .onRelay, _ | .onForward, _ => some { s with pos := .closed }
    | _, _ => none
  | .timeout =>
    match s.pos with
    | .waiting => some { s.returns after false with timedOut := true }
    | _ => none
  | .err =>
    match s.pos with
    -- `OPEN_STREAM` or `STREAM_ACCEPT` could not be written, or the forward path not be set up.
    | .start | .connecting => some { s with pos := .closed, waiter := none }
    | _ => none

/-- `runConsumer` after the wait. -/
def consumerAfter (cfg : Config) (granted : Bool) : Pos :=
  if granted then (if cfg.consumerTLS then .connecting else .closed) else .onRelay

/-- `handleIncoming` after the wait. -/
def providerAfter (cfg : Config) (granted : Bool) : Pos :=
  if granted && cfg.providerTLS then .connecting else .onRelay

def step (cfg : Config) (w : World) : Act → Option World
  | .consumer c =>
    match w.consumer.pos, c with
    | .connecting, .ok =>
      if w.provider.pos = .connecting then
        some { w with consumer := { w.consumer with pos := .onForward }, connected := true }
      else none
    | _, _ =>
      (sideNext cfg.consumerP2P (consumerAfter cfg) w.consumer c).map fun s =>
        { w with consumer := s }
  | .provider c =>
    match w.provider.pos, c with
    | .connecting, .ok =>
      if w.connected then some { w with provider := { w.provider with pos := .onForward } }
      else none
    | _, _ =>
      (sideNext cfg.providerP2P (providerAfter cfg) w.provider c).map fun s =>
        { w with provider := s }
  | .deliverConsumer =>
    if w.consumer.arrived then none
    else some { w with consumer := w.consumer.deliver cfg.mode }
  | .deliverProvider =>
    if w.provider.arrived then none
    else some { w with provider := w.provider.deliver cfg.mode }

def machine (cfg : Config) : Machine World Act where
  init := {}
  step := step cfg

/-! ## Paths -/

inductive Path
  | undecided
  | relay
  | forward
  | closed
  deriving DecidableEq

def Pos.path : Pos → Path
  | .start | .opened | .waiting => .undecided
  | .connecting | .onForward => .forward
  | .onRelay => .relay
  | .closed => .closed

/-- One end bridges the relay stream, and the other has left it for the forward path. -/
def Clash (w : World) : Prop :=
  w.consumer.pos.path = .relay ∧ w.provider.pos.path = .forward ∨
    w.consumer.pos.path = .forward ∧ w.provider.pos.path = .relay

/-- The wait of each end is over, and they have ended differently. -/
def Differ (cfg : Config) (w : World) : Prop :=
  ∃ a b, w.consumer.granted = some a ∧ w.provider.granted = some b ∧ a ≠ (b && cfg.providerTLS)

/-! ## One end -/

/-- The steps both ends have. -/
inductive SideMoves (p2p : Bool) (after : Bool → Pos) (s : Side) : Side → Prop
  | opens : s.pos = .start → SideMoves p2p after s
      { s with pos := .opened, waiter := if p2p then some none else none }
  | waits : s.pos = .opened → s.waiter ≠ none → SideMoves p2p after s { s with pos := .waiting }
  /-- There is no waiter. -/
  | skips : s.pos = .opened → s.waiter = none → SideMoves p2p after s (s.returns after false)
  | notice {m : Mode} : s.pos = .waiting → s.waiter = some (some m) →
      SideMoves p2p after s (s.returns after (m = .forward))
  | timeout : s.pos = .waiting →
      SideMoves p2p after s { s.returns after false with timedOut := true }
  | closes {wt} : s.pos ≠ .closed → wt = none ∨ wt = s.waiter →
      SideMoves p2p after s { s with pos := .closed, waiter := wt }

variable {cfg : Config} {w w' : World} {p2p : Bool} {after : Bool → Pos} {s s' : Side} {c : Choice}
  {a : Act} {mode : Mode}

theorem sideNext_moves (h : sideNext p2p after s c = some s') : SideMoves p2p after s s' := by
  cases c with
  | ok =>
    simp only [sideNext] at h
    split at h
    · rename_i hpos
      cases h
      exact .opens hpos
    · rename_i hpos hwaiter
      cases h
      exact .skips hpos hwaiter
    · rename_i hpos hwaiter
      cases h
      exact .waits hpos (by simp [hwaiter])
    · rename_i mode hpos hwaiter
      cases h
      exact .notice hpos hwaiter
    · rename_i hpos
      cases h
      exact .closes (by simp [hpos]) (.inr rfl)
    · rename_i hpos
      cases h
      exact .closes (by simp [hpos]) (.inr rfl)
    · cases h
  | timeout =>
    simp only [sideNext] at h
    split at h
    · rename_i hpos
      cases h
      exact .timeout hpos
    · cases h
  | err =>
    simp only [sideNext] at h
    split at h
    · rename_i hpos
      cases h
      exact .closes (by simp [hpos]) (.inl rfl)
    · rename_i hpos
      cases h
      exact .closes (by simp [hpos]) (.inl rfl)
    · cases h

/-- What an end knows of its wait. -/
structure SideOk (p2p : Bool) (mode : Mode) (after : Bool → Pos) (s : Side) : Prop where
  undecided : s.pos.path = .undecided → s.granted = none
  chosen : s.pos.path ≠ .closed → ∀ g, s.granted = some g → s.pos.path = (after g).path
  decided : s.pos.path = .relay ∨ s.pos.path = .forward → s.granted ≠ none
  registered : p2p = true → s.pos = .opened ∨ s.pos = .waiting → s.waiter ≠ none
  waiter : ∀ m, s.waiter = some (some m) → m = mode ∧ s.arrived = true
  grant : s.granted = some true → mode = .forward ∧ s.arrived = true
  answer : p2p = true → s.timedOut = false → ∀ g, s.granted = some g →
    g = decide (mode = .forward) ∧ s.arrived = true

/-- The end of a wait. -/
theorem sideOk_returns (hafter : ∀ g, (after g).path ≠ .undecided) {g t : Bool}
    (hgrant : g = true → mode = .forward ∧ s.arrived = true)
    (hanswer : p2p = true → t = false → g = decide (mode = .forward) ∧ s.arrived = true) :
    SideOk p2p mode after { s.returns after g with timedOut := t } := by
  refine ⟨fun hund => absurd hund (hafter g), fun _ g' hg' => ?_, fun _ => nofun,
    fun _ hpos => ?_, nofun, fun hg' => ?_, fun hp ht g' hg' => ?_⟩
  · cases hg'
    rfl
  · refine absurd ?_ (hafter g)
    have hpos : after g = .opened ∨ after g = .waiting := hpos
    rcases hpos with h | h <;> rw [h] <;> rfl
  · exact hgrant (Option.some.inj hg')
  · cases hg'
    exact hanswer hp ht

theorem sideOk_moves (hafter : ∀ g, (after g).path ≠ .undecided) (h : SideOk p2p mode after s)
    (hm : SideMoves p2p after s s') : SideOk p2p mode after s' := by
  cases hm with
  | opens hpos =>
    have hnone := h.undecided (by rw [hpos]; rfl)
    refine ⟨fun _ => hnone, fun _ g hg => ?_, by simp [Pos.path], fun hp _ => by simp [hp],
      fun m hm => ?_, h.grant, h.answer⟩
    · simp [hnone] at hg
    · cases p2p <;> simp at hm
  | waits hpos hwaiter =>
    have hnone := h.undecided (by rw [hpos]; rfl)
    refine ⟨fun _ => hnone, fun _ g hg => ?_, by simp [Pos.path], fun _ _ => hwaiter, h.waiter,
      h.grant, h.answer⟩
    simp [hnone] at hg
  | skips hpos hwaiter =>
    exact sideOk_returns (t := s.timedOut) hafter nofun
      fun hp _ => absurd hwaiter (h.registered hp (.inl hpos))
  | @notice m hpos hwaiter =>
    obtain ⟨rfl, harrived⟩ := h.waiter m hwaiter
    exact sideOk_returns (t := s.timedOut) hafter (fun hg => ⟨of_decide_eq_true hg, harrived⟩)
      fun _ _ => ⟨rfl, harrived⟩
  | timeout => exact sideOk_returns hafter nofun nofun
  | closes hpos hwt =>
    refine ⟨by simp [Pos.path], fun hne => absurd rfl hne, by simp [Pos.path], by simp,
      fun m hm => ?_, h.grant, h.answer⟩
    rcases hwt with rfl | rfl
    · cases hm
    · exact h.waiter m hm

theorem sideOk_deliver (h : SideOk p2p mode after s) : SideOk p2p mode after (s.deliver mode) := by
  unfold Side.deliver
  split
  · refine ⟨h.undecided, h.chosen, h.decided, fun _ _ => nofun, fun m hm => ?_,
      fun hg => ⟨(h.grant hg).1, rfl⟩, fun hp ht g hg => ⟨(h.answer hp ht g hg).1, rfl⟩⟩
    cases hm
    exact ⟨rfl, rfl⟩
  · exact ⟨h.undecided, h.chosen, h.decided, h.registered, fun m hm => ⟨(h.waiter m hm).1, rfl⟩,
      fun hg => ⟨(h.grant hg).1, rfl⟩, fun hp ht g hg => ⟨(h.answer hp ht g hg).1, rfl⟩⟩

/-- The forward stream is there. -/
theorem sideOk_connected (h : SideOk p2p mode after s) (hpos : s.pos = .connecting) :
    SideOk p2p mode after { s with pos := .onForward } := by
  obtain ⟨hund, hchosen, hdec, -, hwaiter, hgrant, hanswer⟩ := h
  rw [hpos] at hund hchosen hdec
  exact ⟨hund, hchosen, hdec, by simp, hwaiter, hgrant, hanswer⟩

/-! ## Both ends -/

theorem consumerAfter_path (cfg : Config) (g : Bool) : (consumerAfter cfg g).path ≠ .undecided := by
  unfold consumerAfter
  split
  · split <;> nofun
  · nofun

theorem providerAfter_path (cfg : Config) (g : Bool) : (providerAfter cfg g).path ≠ .undecided := by
  unfold providerAfter
  split <;> nofun

structure Ok (cfg : Config) (w : World) : Prop where
  consumer : SideOk cfg.consumerP2P cfg.mode (consumerAfter cfg) w.consumer
  provider : SideOk cfg.providerP2P cfg.mode (providerAfter cfg) w.provider

/-- The steps of a stream: those of an end, the forward connection, and the notices. -/
theorem step_cases (h : step cfg w a = some w') :
    (∃ s, SideMoves cfg.consumerP2P (consumerAfter cfg) w.consumer s ∧
      w' = { w with consumer := s }) ∨
    (∃ s, SideMoves cfg.providerP2P (providerAfter cfg) w.provider s ∧
      w' = { w with provider := s }) ∨
    (w.consumer.pos = .connecting ∧ w.provider.pos = .connecting ∧
      w' = { w with consumer := { w.consumer with pos := .onForward }, connected := true }) ∨
    (w.provider.pos = .connecting ∧ w.connected = true ∧
      w' = { w with provider := { w.provider with pos := .onForward } }) ∨
    w' = { w with consumer := w.consumer.deliver cfg.mode } ∨
    w' = { w with provider := w.provider.deliver cfg.mode } := by
  cases a with
  | consumer c =>
    simp only [step] at h
    split at h
    · rename_i hpos
      split at h
      · rename_i hprov
        cases h
        exact .inr (.inr (.inl ⟨hpos, hprov, rfl⟩))
      · cases h
    · obtain ⟨s, hs, rfl⟩ := Option.map_eq_some_iff.mp h
      exact .inl ⟨s, sideNext_moves hs, rfl⟩
  | provider c =>
    simp only [step] at h
    split at h
    · rename_i hpos
      split at h
      · rename_i hconn
        cases h
        exact .inr (.inr (.inr (.inl ⟨hpos, hconn, rfl⟩)))
      · cases h
    · obtain ⟨s, hs, rfl⟩ := Option.map_eq_some_iff.mp h
      exact .inr (.inl ⟨s, sideNext_moves hs, rfl⟩)
  | deliverConsumer =>
    simp only [step] at h
    split at h
    · cases h
    · cases h
      exact .inr (.inr (.inr (.inr (.inl rfl))))
  | deliverProvider =>
    simp only [step] at h
    split at h
    · cases h
    · cases h
      exact .inr (.inr (.inr (.inr (.inr rfl))))

theorem reach_ok (h : (machine cfg).Reach w) : Ok cfg w := by
  have hinit (p2p : Bool) (after : Bool → Pos) : SideOk p2p cfg.mode after {} :=
    ⟨fun _ => rfl, nofun, by simp [Pos.path], by simp, nofun, nofun, nofun⟩
  refine Machine.Reach.invariant (M := machine cfg) ⟨hinit _ _, hinit _ _⟩ ?_ h
  intro w a w' hw hst
  obtain ⟨s, hm, rfl⟩ | ⟨s, hm, rfl⟩ | ⟨hpos, -, rfl⟩ | ⟨hpos, -, rfl⟩ | rfl | rfl :=
    step_cases hst
  · exact ⟨sideOk_moves (consumerAfter_path cfg) hw.consumer hm, hw.provider⟩
  · exact ⟨hw.consumer, sideOk_moves (providerAfter_path cfg) hw.provider hm⟩
  · exact ⟨sideOk_connected hw.consumer hpos, hw.provider⟩
  · exact ⟨hw.consumer, sideOk_connected hw.provider hpos⟩
  · exact ⟨sideOk_deliver hw.consumer, hw.provider⟩
  · exact ⟨hw.consumer, sideOk_deliver hw.provider⟩

theorem path_closed {pos : Pos} (h : pos ≠ .closed) : pos.path ≠ .closed := by
  cases pos with
  | closed => exact absurd rfl h
  | _ => nofun

/-- Where the consumer is, when its wait is over and the stream not torn down. -/
theorem Ok.consumer_path (h : Ok cfg w) (hopen : w.consumer.pos ≠ .closed) {g : Bool}
    (hg : w.consumer.granted = some g) :
    w.consumer.pos.path = if g then .forward else .relay := by
  have hne := path_closed hopen
  have hpath := h.consumer.chosen hne g hg
  cases g with
  | false => exact hpath
  | true =>
    cases htls : cfg.consumerTLS with
    | true => simpa [consumerAfter, htls, Pos.path] using hpath
    | false => exact absurd (by simpa [consumerAfter, htls, Pos.path] using hpath) hne

/-- The same for the provider. -/
theorem Ok.provider_path (h : Ok cfg w) (hopen : w.provider.pos ≠ .closed) {g : Bool}
    (hg : w.provider.granted = some g) :
    w.provider.pos.path = if g && cfg.providerTLS then .forward else .relay := by
  have hpath := h.provider.chosen (path_closed hopen) g hg
  cases hg : g && cfg.providerTLS <;> simpa [providerAfter, hg, Pos.path] using hpath

theorem clash_of_differ (h : Ok cfg w) (hc : w.consumer.pos ≠ .closed)
    (hp : w.provider.pos ≠ .closed) (hd : Differ cfg w) : Clash w := by
  obtain ⟨a, b, ha, hb, hab⟩ := hd
  have hcp := h.consumer_path hc ha
  have hpp := h.provider_path hp hb
  cases a with
  | false =>
    have hb : (b && cfg.providerTLS) = true := by simpa using hab.symm
    exact .inl ⟨by simpa using hcp, by simpa [hb] using hpp⟩
  | true =>
    have hb : (b && cfg.providerTLS) = false := by simpa using hab.symm
    exact .inr ⟨by simpa using hcp, by simpa [hb] using hpp⟩

theorem open_of_path {pos : Pos} (h : pos.path = .relay ∨ pos.path = .forward) :
    pos ≠ .closed := by
  rintro rfl
  rcases h with h | h <;> cases h

/-- An end that has left the relay stream has got the grant. -/
theorem SideOk.granted (h : SideOk p2p mode after s) (hafter : (after false).path = .relay)
    (hf : s.pos.path = .forward) : s.granted = some true := by
  obtain ⟨g, hg⟩ := Option.ne_none_iff_exists'.mp (h.decided (.inr hf))
  cases g with
  | true => exact hg
  | false =>
    have hpath := h.chosen (by simp [hf]) false hg
    rw [hf, hafter] at hpath
    cases hpath

theorem differ_of_clash (h : Ok cfg w) (hclash : Clash w) :
    Differ cfg w ∧ w.consumer.pos ≠ .closed ∧ w.provider.pos ≠ .closed := by
  have hcons : w.consumer.pos.path = .relay ∨ w.consumer.pos.path = .forward :=
    hclash.imp And.left And.left
  have hprov : w.provider.pos.path = .relay ∨ w.provider.pos.path = .forward :=
    hclash.symm.imp And.right And.right
  obtain ⟨a, ha⟩ := Option.ne_none_iff_exists'.mp (h.consumer.decided hcons)
  obtain ⟨b, hb⟩ := Option.ne_none_iff_exists'.mp (h.provider.decided hprov)
  have hcp := h.consumer_path (open_of_path hcons) ha
  have hpp := h.provider_path (open_of_path hprov) hb
  refine ⟨⟨a, b, ha, hb, ?_⟩, open_of_path hcons, open_of_path hprov⟩
  rintro rfl
  -- With the same choice the two paths are the same.
  have hsame := hcp.trans hpp.symm
  rcases hclash with ⟨hr, hf⟩ | ⟨hf, hr⟩
  · rw [hr, hf] at hsame
    cases hsame
  · rw [hr, hf] at hsame
    cases hsame

theorem deliver_pos (s : Side) (mode : Mode) : (s.deliver mode).pos = s.pos := by
  unfold Side.deliver
  split <;> rfl

theorem sideMoves_open (hm : SideMoves p2p after s s') : s.pos ≠ .closed := by
  cases hm with
  | opens hpos | waits hpos | skips hpos | notice hpos | timeout hpos => simp [hpos]
  | closes hpos => exact hpos

/-- From `DialForward` or `AcceptForward` the steps of an end alone lead to its end. -/
theorem sideMoves_late (hm : SideMoves p2p after s s') (h : s.pos = .connecting ∨ s.pos = .closed) :
    s'.pos = .connecting ∨ s'.pos = .closed := by
  have hpos := h.resolve_right (sideMoves_open hm)
  cases hm with
  | opens hp | waits hp | skips hp | notice hp | timeout hp => simp [hpos] at hp
  | closes => exact .inr rfl

/-- A provider that waits for a consumer that has given up goes on waiting, or gives up too. -/
theorem provider_waits (h : (machine cfg).Reach w) (hc : w.consumer.pos = .closed)
    (hp : w.provider.pos = .connecting) (hconn : w.connected = false)
    (hr : (machine cfg).ReachFrom w w') :
    w'.provider.pos = .connecting ∨ w'.provider.pos = .closed := by
  have hinv : w'.consumer.pos = .closed ∧ w'.connected = false ∧
      (w'.provider.pos = .connecting ∨ w'.provider.pos = .closed) := by
    refine Machine.ReachFrom.invariant (M := machine cfg) (I := fun w =>
      w.consumer.pos = .closed ∧ w.connected = false ∧
        (w.provider.pos = .connecting ∨ w.provider.pos = .closed)) h ⟨hc, hconn, .inl hp⟩ ?_ hr
    rintro w a w' - ⟨hc, hconn, hp⟩ hst
    obtain ⟨s, hm, rfl⟩ | ⟨s, hm, rfl⟩ | ⟨hpos, -, rfl⟩ | ⟨-, hyes, rfl⟩ | rfl | rfl :=
      step_cases hst
    · exact absurd hc (sideMoves_open hm)
    · exact ⟨hc, hconn, sideMoves_late hm hp⟩
    · simp [hc] at hpos
    · simp [hconn] at hyes
    · exact ⟨by rwa [deliver_pos], hconn, hp⟩
    · exact ⟨hc, hconn, by rwa [deliver_pos]⟩
  exact hinv.2.2

/-! ## The results -/

/-- An end in its wait whose channel holds the notice can return, with what the notice says. -/
theorem sideNext_notice (hpos : s.pos = .waiting) {m : Mode} (hwaiter : s.waiter = some (some m)) :
    sideNext p2p after s .ok = some (s.returns after (m = .forward)) := by
  simp [sideNext, hpos, hwaiter]

/-- The wait of an end that registers or not is over, without the notice. -/
def Side.missed (s : Side) (p2p : Bool) : Prop := p2p = false ∨ s.timedOut = true

/-- A wait that has not missed its notice returned it. -/
theorem SideOk.answered (h : SideOk p2p mode after s) (hm : ¬ s.missed p2p) {g : Bool}
    (hg : s.granted = some g) : g = decide (mode = .forward) ∧ s.arrived = true := by
  obtain ⟨hp, ht⟩ := not_or.mp hm
  exact h.answer (Bool.not_eq_false _ ▸ hp) (Bool.eq_false_iff.mpr ht) g hg

/-- Waits that both returned their notice have ended alike, where the provider has forward TLS. -/
theorem Ok.alike (h : Ok cfg w) (hc : ¬ w.consumer.missed cfg.consumerP2P)
    (hp : ¬ w.provider.missed cfg.providerP2P) (htls : cfg.providerTLS = true) :
    ¬ Differ cfg w := by
  rintro ⟨a, b, ha, hb, hab⟩
  rw [(h.consumer.answered hc ha).1, (h.provider.answered hp hb).1, htls, Bool.and_true] at hab
  exact hab rfl

/-- What can be said of the paths the two ends are on. -/
structure Paths (cfg : Config) (w : World) : Prop where
  /-- In splice mode no end leaves the relay stream. -/
  splice : cfg.mode = .splice → w.consumer.pos.path ≠ .forward ∧ w.provider.pos.path ≠ .forward
  /-- The ends are on different paths exactly when their waits have ended differently and neither
  has torn the stream down. -/
  clash : Clash w ↔ Differ cfg w ∧ w.consumer.pos ≠ .closed ∧ w.provider.pos ≠ .closed
  /-- A wait ends with a grant only if the relay granted and the notice has arrived. -/
  grant : ∀ s, s = w.consumer ∨ s = w.provider → s.granted = some true →
    cfg.mode = .forward ∧ s.arrived = true
  /-- A wait with a waiter that does not time out ends with what the relay sent. -/
  consumerAnswer : ¬ w.consumer.missed cfg.consumerP2P → ∀ g, w.consumer.granted = some g →
    g = decide (cfg.mode = .forward) ∧ w.consumer.arrived = true
  providerAnswer : ¬ w.provider.missed cfg.providerP2P → ∀ g, w.provider.granted = some g →
    g = decide (cfg.mode = .forward) ∧ w.provider.arrived = true
  /-- A notice in the channel of an end that waits can be returned. -/
  consumerReturns : w.consumer.pos = .waiting → ∀ m, w.consumer.waiter = some (some m) →
    m = cfg.mode ∧ ∃ w', step cfg w (.consumer .ok) = some w' ∧
      w'.consumer.granted = some (decide (cfg.mode = .forward))
  providerReturns : w.provider.pos = .waiting → ∀ m, w.provider.waiter = some (some m) →
    m = cfg.mode ∧ ∃ w', step cfg w (.provider .ok) = some w' ∧
      w'.provider.granted = some (decide (cfg.mode = .forward))
  /-- The ends are on different paths only if one of them missed its notice, or the provider has no
  forward TLS. -/
  cause : Clash w → w.consumer.missed cfg.consumerP2P ∨ w.provider.missed cfg.providerP2P ∨
    cfg.providerTLS = false
  /-- A provider in `AcceptForward` does not learn that the consumer has torn the stream down. -/
  unnoticed : w.consumer.pos = .closed → w.provider.pos = .connecting → w.connected = false →
    ∀ w', (machine cfg).ReachFrom w w' →
      w'.provider.pos = .connecting ∨ w'.provider.pos = .closed

theorem Ok.cause (h : Ok cfg w) (hclash : Clash w) :
    w.consumer.missed cfg.consumerP2P ∨ w.provider.missed cfg.providerP2P ∨
      cfg.providerTLS = false := by
  by_contra hnot
  obtain ⟨hc, hnot⟩ := not_or.mp hnot
  obtain ⟨hp, htls⟩ := not_or.mp hnot
  exact h.alike hc hp (Bool.not_eq_false _ ▸ htls) (differ_of_clash h hclash).1

/-- **The two ends of a stream agree on its path as far as their waits end alike**, and the waits
end alike as far as both return the notice. -/
theorem ends_agree_iff (h : (machine cfg).Reach w) : Paths cfg w := by
  have hok := reach_ok h
  refine ⟨fun hsplice => ⟨fun hf => ?_, fun hf => ?_⟩, ⟨differ_of_clash hok, ?_⟩, ?_,
    fun hm _ hg => hok.consumer.answered hm hg, fun hm _ hg => hok.provider.answered hm hg,
    fun hpos m hwaiter => ?_, fun hpos m hwaiter => ?_, hok.cause, ?_⟩
  · have hgrant := hok.consumer.grant (hok.consumer.granted rfl hf)
    simp [hsplice] at hgrant
  · have hgrant := hok.provider.grant (hok.provider.granted rfl hf)
    simp [hsplice] at hgrant
  · rintro ⟨hd, hc, hp⟩
    exact clash_of_differ hok hc hp hd
  · rintro s (rfl | rfl) hg
    · exact hok.consumer.grant hg
    · exact hok.provider.grant hg
  · obtain ⟨rfl, -⟩ := hok.consumer.waiter m hwaiter
    refine ⟨rfl, { w with
      consumer := w.consumer.returns (consumerAfter cfg) (cfg.mode = .forward) }, ?_, rfl⟩
    simp only [step, hpos, sideNext_notice hpos hwaiter, Option.map_some]
  · obtain ⟨rfl, -⟩ := hok.provider.waiter m hwaiter
    refine ⟨rfl, { w with
      provider := w.provider.returns (providerAfter cfg) (cfg.mode = .forward) }, ?_, rfl⟩
    simp only [step, hpos, sideNext_notice hpos hwaiter, Option.map_some]
  · intro hc hp hconn w' hr
    exact provider_waits h hc hp hconn hr

/-- Forward mode, with everything set. -/
def forwardConfig : Config := ⟨.forward, true, true, true, true⟩

/-- Both ends get their notice in time, and the forward stream is set up. -/
theorem ends_agree_iff_forward :
    ∃ w, (machine forwardConfig).Reach w ∧ w.consumer.pos = .onForward ∧
      w.provider.pos = .onForward ∧ Paths forwardConfig w := by
  have hrun := Machine.reach_of_run (M := machine forwardConfig)
    [.consumer .ok, .provider .ok, .deliverConsumer, .deliverProvider, .consumer .ok, .consumer .ok,
      .provider .ok, .provider .ok, .consumer .ok, .provider .ok] rfl
  exact ⟨_, hrun, rfl, rfl, ends_agree_iff hrun⟩

/-- **Two ways of disagreeing.** The consumer's wait has timed out and it bridges the relay stream
while the provider is in `AcceptForward`; the provider's wait has timed out and it bridges the relay
stream while the consumer dials forward. -/
theorem one_end_forward :
    (∃ w, (machine forwardConfig).Reach w ∧ w.consumer.pos = .onRelay ∧
      w.provider.pos = .connecting) ∧
    ∃ w, (machine forwardConfig).Reach w ∧ w.consumer.pos = .connecting ∧
      w.provider.pos = .onRelay :=
  ⟨⟨_, Machine.reach_of_run (M := machine forwardConfig)
    [.consumer .ok, .provider .ok, .deliverProvider, .provider .ok, .provider .ok, .consumer .ok,
      .consumer .timeout] rfl, rfl, rfl⟩,
   ⟨_, Machine.reach_of_run (M := machine forwardConfig)
    [.consumer .ok, .provider .ok, .deliverConsumer, .consumer .ok, .consumer .ok, .provider .ok,
      .provider .timeout] rfl, rfl, rfl⟩⟩

end OutRelayAgent.StreamMode
