import OutRelayAgent.Session.Attempts
import OutRelayAgent.Session.Happy

/-!
# Three ways to find a relay

An agent goes through its list of relays in three places: `DialAny` tries one after the other
(`session.go:140-158`), `DialAnyHappy` tries all at once (`session.go:172-228`,
`Session/Happy.lean`), and `Reconnect` has a loop of its own (`session.go:716-754`,
`Session/Attempts.lean`). Each address behaves in a fixed way here (`serve`): the calls that a
session is made of succeed or fail for it, whoever makes them. Once the race has a winner, anything
may become of the other attempts.

* `race_agrees`: the race finds a relay whenever `DialAny` does, and neither takes one that does not
  answer. `DialAny` takes the first that answers, and otherwise reports the error of the first
  address; the race takes any that answers, and otherwise reports the error of any address.
* `reconnect_agrees`: `Reconnect` takes the relay `DialAny` takes. When there is none it reports the
  first error of `Dial`, of whichever address, and for addresses that fail after that no cause.
-/

namespace OutRelayAgent.Failover

open Lib
open Happy (Err HappyErr Result Race)

section Model

variable {A ε : Type}

/-- The calls a session is made of. -/
inductive Point
  | dial
  | openStream
  | writeHello
  | readAck
  | decodeAck

/-- `DialWithDialer`, given what comes of each call. -/
def dialWithDialer (serve : Point → Except ε Unit) : Result ε :=
  match serve .dial with
  | .error e => .error (.dial e)
  | .ok _ =>
    match serve .openStream with
    | .error e => .error (.openCtrl e)
    | .ok _ =>
      match serve .writeHello with
      | .error e => .error (.sendHello e)
      | .ok _ =>
        match serve .readAck with
        | .error e => .error (.readHelloAck e)
        | .ok _ =>
          match serve .decodeAck with
          | .error e => .error (.unmarshal e)
          | .ok _ => .ok ()

/-- The loop of `DialAny`. -/
def dialLoop (serve : A → Point → Except ε Unit) :
    List A → Option (Err ε) → Except (HappyErr ε) A
  | [], firstErr => .error (.allFailed firstErr)
  | addr :: rest, firstErr =>
    match dialWithDialer (serve addr) with
    | .ok _ => .ok addr
    | .error e => dialLoop serve rest (firstErr <|> some e)

/-- `DialAny`, with the address for the session. -/
def dialAny (serve : A → Point → Except ε Unit) (addrs : List A) : Except (HappyErr ε) A :=
  match addrs with
  | [] => .error .noAddresses
  | addrs => dialLoop serve addrs none

/-- Why the relay does not answer. -/
def failure (serve : A → Point → Except ε Unit) (addr : A) : Option (Err ε) :=
  match dialWithDialer (serve addr) with
  | .ok _ => none
  | .error e => some e

/-- The relay answers. -/
def answers (serve : A → Point → Except ε Unit) (addr : A) : Bool := (failure serve addr).isNone

end Model

section DialAny

variable {A ε : Type} {serve : A → Point → Except ε Unit}

theorem answers_iff {addr : A} :
    answers serve addr = true ↔ dialWithDialer (serve addr) = .ok () := by
  unfold answers failure
  cases dialWithDialer (serve addr) <;> simp

theorem failure_eq_some {addr : A} {e : Err ε} :
    failure serve addr = some e ↔ dialWithDialer (serve addr) = .error e := by
  unfold failure
  cases dialWithDialer (serve addr) <;> simp

theorem dialLoop_eq (addrs : List A) (firstErr : Option (Err ε)) :
    dialLoop serve addrs firstErr =
      match addrs.find? (answers serve) with
      | some addr => .ok addr
      | none => .error (.allFailed (firstErr <|> addrs.head?.bind (failure serve))) := by
  induction addrs generalizing firstErr with
  | nil => cases firstErr <;> rfl
  | cons addr rest ih =>
    unfold dialLoop
    cases h : dialWithDialer (serve addr) with
    | ok u =>
      have hans : answers serve addr = true := answers_iff.mpr h
      simp [hans]
    | error e =>
      have hfail : failure serve addr = some e := failure_eq_some.mpr h
      dsimp only
      rw [ih, List.find?_cons_of_neg (by simp [answers, hfail])]
      cases rest.find? (answers serve) <;> cases firstErr <;> simp [hfail]

/-- `DialAny` takes the first relay that answers. -/
theorem dialAny_eq (serve : A → Point → Except ε Unit) {addrs : List A} (hne : addrs ≠ []) :
    dialAny serve addrs =
      match addrs.find? (answers serve) with
      | some addr => .ok addr
      | none => .error (.allFailed (addrs.head?.bind (failure serve))) := by
  cases addrs with
  | nil => exact absurd rfl hne
  | cons addr rest => exact dialLoop_eq (addr :: rest) none

end DialAny

/-! ## The race -/

section Race

variable {A ε : Type} {serve : A → Point → Except ε Unit} {addrs : List A}

/-- The call an attempt is in. -/
def point : Happy.Phase ε → Option Point
  | .dialing => some .dial
  | .opening => some .openStream
  | .greeting => some .writeHello
  | .awaiting => some .readAck
  | .decoding => some .decodeAck
  | _ => none

/-- As long as there is no winner, calls end as the address has it. -/
def Conforms (serve : A → Point → Except ε Unit) (addrs : List A) (s : Race ε) :
    Happy.Act ε → Prop
  | .dial j c => s.winner = none → ∀ addr ∈ addrs[j]?, ∀ pt ∈ point (s.phase j), c = serve addr pt
  | _ => True

instance [DecidableEq ε] (s : Race ε) :
    (a : Happy.Act ε) → Decidable (Conforms serve addrs s a)
  | .dial j c => inferInstanceAs (Decidable (s.winner = none →
      ∀ addr ∈ addrs[j]?, ∀ pt ∈ point (s.phase j), c = serve addr pt))
  | .send _ => .isTrue trivial
  | .main => .isTrue trivial

/-- Where an attempt can be, and with what. -/
def Walked (serve : Point → Except ε Unit) : Happy.Phase ε → Prop
  | .dialing => True
  | .opening => serve .dial = .ok ()
  | .greeting => serve .dial = .ok () ∧ serve .openStream = .ok ()
  | .awaiting => serve .dial = .ok () ∧ serve .openStream = .ok () ∧ serve .writeHello = .ok ()
  | .decoding => serve .dial = .ok () ∧ serve .openStream = .ok () ∧ serve .writeHello = .ok () ∧
      serve .readAck = .ok ()
  | .closing e => dialWithDialer serve = .error e
  | .returned r => dialWithDialer serve = r
  | .sent => True

theorem Walked.step {serve : Point → Except ε Unit} {p p' : Happy.Phase ε} {c : Except ε Unit}
    {k k' : Happy.Conn} (h : Walked serve p) (hc : ∀ pt, point p = some pt → serve pt = c)
    (hs : Happy.dialWithDialer p c k = some (p', k')) : Walked serve p' := by
  -- one case for each call and its outcome
  cases p <;> cases c <;> cases hs <;>
    simp only [point, Option.some.injEq, forall_eq'] at hc <;>
    simp_all [Walked, dialWithDialer]

/-- As long as there is no winner all attempts do what the addresses have them do, and the winner
has done so. -/
structure Agrees (serve : A → Point → Except ε Unit) (addrs : List A) (s : Race ε) : Prop where
  phases : s.winner = none → ∀ j addr, addrs[j]? = some addr → Walked (serve addr) (s.phase j)
  results : s.winner = none → ∀ x ∈ s.results, ∀ addr, addrs[x.1]? = some addr →
    x.2 = dialWithDialer (serve addr)
  winner : ∀ w, s.winner = some w → ∀ addr, addrs[w]? = some addr →
    dialWithDialer (serve addr) = .ok ()

/-- One attempt goes on. -/
theorem walked_update {f : ℕ → Happy.Phase ε} {j : ℕ} {p : Happy.Phase ε}
    (h : ∀ i addr, addrs[i]? = some addr → Walked (serve addr) (f i))
    (hp : ∀ addr, addrs[j]? = some addr → Walked (serve addr) p) :
    ∀ i addr, addrs[i]? = some addr → Walked (serve addr) (Function.update f j p i) := by
  intro i addr hi
  rcases eq_or_ne i j with rfl | hne
  · rw [Function.update_self]
    exact hp addr hi
  · rw [Function.update_of_ne hne]
    exact h i addr hi

theorem Agrees.collect {s : Race ε} {j : ℕ} {r : Result ε} (h : Agrees serve addrs s)
    (hmem : (j, r) ∈ s.results) : Agrees serve addrs (Happy.collect s j r) := by
  have hwinner := Happy.collect_winner s j r
  constructor
  · intro hw
    rw [hwinner, Option.orElse_eq_none] at hw
    rw [Happy.collect_phase]
    exact h.phases hw.1
  · intro hw
    rw [hwinner, Option.orElse_eq_none] at hw
    rw [Happy.collect_results]
    exact h.results hw.1
  · intro w hw addr hi
    cases hnone : s.winner with
    | some v =>
      rw [hwinner, hnone] at hw
      cases hw
      exact h.winner _ hnone addr hi
    | none =>
      rw [hwinner, hnone] at hw
      rw [Happy.won_eq_some.mp hw] at hmem
      exact (h.results hnone (w, .ok ()) hmem addr hi).symm

theorem Agrees.moves {s s' : Race ε} {a : Happy.Act ε} (h : Agrees serve addrs s)
    (hc : Conforms serve addrs s a) (hm : Happy.Moves addrs.length s a s') :
    Agrees serve addrs s' := by
  cases hm with
  | @dial j c p k hj hd =>
    refine ⟨fun hw => walked_update (h.phases hw) fun addr hi => ?_, h.results, h.winner⟩
    exact (h.phases hw j addr hi).step (fun pt hpt => (hc hw addr hi pt hpt).symm) hd
  | @send j r hj hn hp =>
    refine ⟨fun hw => walked_update (h.phases hw) fun _ _ => trivial, fun hw x hx addr hi => ?_,
      h.winner⟩
    rcases List.mem_append.mp hx with hx | hx
    · exact h.results hw x hx addr hi
    · rw [List.mem_singleton.mp hx] at hi ⊢
      have hwalked := h.phases hw j addr hi
      rw [hp] at hwalked
      exact hwalked.symm
  | none => exact ⟨h.phases, h.results, h.winner⟩
  | single => exact ⟨h.phases, h.results, h.winner⟩
  | finish => exact ⟨h.phases, h.results, h.winner⟩
  | collect hr hn hi hres =>
    have hcollect := h.collect (List.mem_of_getElem? hres)
    exact ⟨hcollect.phases, hcollect.results, hcollect.winner⟩

theorem reach_agrees {s : Race ε}
    (h : (Happy.happy ε addrs).ReachWhile (Conforms serve addrs) s) : Agrees serve addrs s := by
  refine Machine.ReachWhile.invariant (I := Agrees serve addrs) ?_ ?_ h
  · constructor
    · exact fun _ _ _ _ => trivial
    · intro _ x hx
      cases hx
    · intro w hw
      cases hw
  · exact fun s a s' _ hs hc hst => hs.moves hc (Happy.moves_of_step hst)

/-- What arrives while there is no winner. -/
theorem Agrees.arrivals {s : Race ε} (h : Agrees serve addrs s) (hw : s.winner = none) :
    ∀ x ∈ Happy.arrivals addrs.length s, ∀ addr, addrs[x.1]? = some addr →
      x.2 = dialWithDialer (serve addr) := by
  intro x hx addr hi
  unfold Happy.arrivals at hx
  split at hx
  · rename_i hp
    rw [List.mem_singleton.mp hx] at hi ⊢
    have hwalked := h.phases hw 0 addr hi
    rw [hp] at hwalked
    exact hwalked.symm
  · exact h.results hw x hx addr hi

/-- A winner is returned. -/
theorem winner_cases {s : Race ε} {n : ℕ} {old fresh : List (ℕ × Result ε)}
    (h : Happy.Inv n s old fresh) (hn : 0 < n) {r : Except (HappyErr ε) ℕ}
    (hr : s.returned = some r) : s.winner = none ∨ ∃ w, s.winner = some w ∧ r = .ok w := by
  rcases h.returned r hr with h0 | ⟨h1, -, -, -⟩ | ⟨-, -, rfl⟩
  · omega
  · left
    have hnil := h.single (by omega)
    rw [h.results, List.append_eq_nil_iff] at hnil
    rw [h.winner, hnil.1]
    rfl
  · cases s.winner with
    | none => exact .inl rfl
    | some w => exact .inr ⟨w, rfl, rfl⟩

/-- What the race returns. -/
theorem race_returned (hne : addrs ≠ []) {s : Race ε}
    (h : (Happy.happy ε addrs).ReachWhile (Conforms serve addrs) s)
    {r : Except (HappyErr ε) ℕ} (hr : s.returned = some r) :
    (∀ j, r = .ok j → ∃ addr, addrs[j]? = some addr ∧ answers serve addr = true) ∧
    ∀ e, r = .error e → (∀ addr ∈ addrs, answers serve addr = false) ∧
      ∃ addr ∈ addrs, ∃ e₁, failure serve addr = some e₁ ∧
        (e = .own e₁ ∨ e = .allFailed (some e₁)) := by
  obtain ⟨old, fresh, hinv⟩ := Happy.inv_reach h.reach
  have hagrees := reach_agrees h
  have hn : 0 < addrs.length := List.length_pos_iff.mpr hne
  have hchosen := hinv.chosen hn hr
  have hindex : ∀ x ∈ Happy.arrivals addrs.length s, ∃ addr, addrs[x.1]? = some addr := by
    intro x hx
    have hlt := List.mem_range.mp (hchosen.all.mem_iff.mp (List.mem_map_of_mem hx))
    exact ⟨_, List.getElem?_eq_getElem hlt⟩
  constructor
  · intro j hj
    obtain ⟨l₁, l₂, harr, -⟩ := (hchosen.success j).mp hj
    have hmem : (j, .ok ()) ∈ Happy.arrivals addrs.length s := by simp [harr]
    obtain ⟨addr, haddr⟩ := hindex _ hmem
    refine ⟨addr, haddr, answers_iff.mpr ?_⟩
    rcases winner_cases hinv hn hr with hw | ⟨w, hw, hrw⟩
    · exact (hagrees.arrivals hw _ hmem addr haddr).symm
    · cases hj.symm.trans hrw
      exact hagrees.winner j hw addr haddr
  · intro e he
    obtain ⟨hfailed, j, e₁, l, harr, heq⟩ := (hchosen.failure e).mp he
    have hw : s.winner = none := by
      rcases winner_cases hinv hn hr with hw | ⟨w, -, hrw⟩
      · exact hw
      · cases he.symm.trans hrw
    refine ⟨fun addr haddr => ?_, ?_⟩
    · obtain ⟨i, hi⟩ := List.mem_iff_getElem?.mp haddr
      have hlt : i < addrs.length := (List.getElem?_eq_some_iff.mp hi).1
      obtain ⟨x, hx, rfl⟩ :=
        List.mem_map.mp (hchosen.all.mem_iff.mpr (List.mem_range.mpr hlt))
      rw [Bool.eq_false_iff, Ne, answers_iff, ← hagrees.arrivals hw x hx addr hi]
      exact hfailed x hx
    · have hmem : (j, .error e₁) ∈ Happy.arrivals addrs.length s := by simp [harr]
      obtain ⟨addr, haddr⟩ := hindex _ hmem
      refine ⟨addr, List.mem_of_getElem? haddr, e₁,
        failure_eq_some.mpr (hagrees.arrivals hw _ hmem addr haddr).symm, ?_⟩
      by_cases h1 : addrs.length = 1
      · exact .inl (by rw [heq, if_pos h1])
      · exact .inr (by rw [heq, if_neg h1])

/-- **The race agrees with `DialAny`.** -/
theorem race_agrees (serve : A → Point → Except ε Unit) (addrs : List A) (hne : addrs ≠ []) :
    (dialAny serve addrs =
      match addrs.find? (answers serve) with
      | some addr => .ok addr
      | none => .error (.allFailed (addrs.head?.bind (failure serve)))) ∧
    ∀ s, (Happy.happy ε addrs).ReachWhile (Conforms serve addrs) s →
      ∀ r, s.returned = some r →
        ((∃ j, r = .ok j) ↔ ∃ addr, dialAny serve addrs = .ok addr) ∧
        (∀ j, r = .ok j → ∃ addr, addrs[j]? = some addr ∧ answers serve addr = true) ∧
        ∀ e, r = .error e → ∃ addr ∈ addrs, ∃ e₁, failure serve addr = some e₁ ∧
          (e = .own e₁ ∨ e = .allFailed (some e₁)) := by
  have heq := dialAny_eq serve hne
  refine ⟨heq, fun s hs r hr => ?_⟩
  obtain ⟨hok, herr⟩ := race_returned hne hs hr
  refine ⟨?_, hok, fun e he => (herr e he).2⟩
  rw [heq]
  constructor
  · rintro ⟨j, hj⟩
    obtain ⟨addr, haddr, hans⟩ := hok j hj
    cases hfind : addrs.find? (answers serve) with
    | some found => exact ⟨found, rfl⟩
    | none => exact absurd hans (List.find?_eq_none.mp hfind addr (List.mem_of_getElem? haddr))
  · rintro ⟨addr, haddr⟩
    cases r with
    | ok j => exact ⟨j, rfl⟩
    | error e =>
      cases hfind : addrs.find? (answers serve) with
      | none =>
        rw [hfind] at haddr
        cases haddr
      | some found =>
        have hans := (herr e rfl).1 found (List.mem_of_find?_eq_some hfind)
        rw [List.find?_some hfind] at hans
        cases hans

/-- The first relay takes `HELLO` and hangs up, the second one answers. -/
def secondUp : ℕ → Point → Except ℕ Unit
  | 0, .readAck => .error 7
  | _, _ => .ok ()

/-- Both agree on the second relay. -/
theorem race_agrees_second :
    dialAny secondUp [0, 1] = .ok 1 ∧
      ∃ s, (Happy.happy ℕ [0, 1]).ReachWhile (Conforms secondUp [0, 1]) s ∧
        s.returned = some (.ok 1) ∧ ∃ addr, dialAny secondUp [0, 1] = .ok addr := by
  have hrun := Machine.reachWhile_of_run (M := Happy.happy ℕ [0, 1])
    (C := fun s a => decide (Conforms secondUp [0, 1] s a))
    [.dial 0 (.ok ()), .dial 1 (.ok ()), .dial 0 (.ok ()), .dial 1 (.ok ()), .dial 0 (.ok ()),
      .dial 0 (.error 7), .dial 0 (.ok ()), .send 0, .main, .dial 1 (.ok ()),
      .dial 1 (.ok ()), .dial 1 (.ok ()), .send 1, .main, .main] rfl
  have hs := hrun.mono fun s a h => of_decide_eq_true h
  have hagrees := (race_agrees secondUp [0, 1] (by simp)).2 _ hs (.ok 1) rfl
  exact ⟨rfl, _, hs, rfl, hagrees.1.mp ⟨1, rfl⟩⟩

end Race

/-! ## `Reconnect` -/

section Reconnect

open Attempts (Stage Outcome World Phase Choice Failure machine NoneYet)

variable {ID N H ε : Type} {serve : String → Point → Except ε Unit}

def stagePoint : Stage → Point
  | .openStream => .openStream
  | .writeHello => .writeHello
  | .readAck => .readAck
  | .decodeAck => .decodeAck

/-- The call succeeds. -/
def passes (serve : String → Point → Except ε Unit) (addr : String) (pt : Point) : Bool :=
  (serve addr pt).isOk

/-- The calls of the loop end as the address has it. -/
def conforms (serve : String → Point → Except ε Unit) (w : World ID N H) :
    Attempts.Act ID N H → Bool
  | .step c =>
    match w.phase, c with
    | .dial (addr :: _) _, .ok => passes serve addr .dial
    | .dial (addr :: _) _, .err => !passes serve addr .dial
    | .hello stage _ addr _ _, .ok => passes serve addr (stagePoint stage)
    | .hello stage _ addr _ _, .err => !passes serve addr (stagePoint stage)
    | _, _ => true
  | _ => true

/-- What has come of the addresses is what they have it be. -/
def Tried (serve : String → Point → Except ε Unit) (x : String × Outcome) : Prop :=
  match x.2 with
  | .dialFailed => passes serve x.1 .dial = false
  | .failed _ => passes serve x.1 .dial = true ∧ answers serve x.1 = false
  | .completed _ => answers serve x.1 = true

/-- The first address that could not be dialled. -/
def undialled (x : String × Outcome) : Option String :=
  match x.2 with
  | .dialFailed => some x.1
  | _ => none

/-- The calls before a stage have succeeded. -/
def passedUpTo (serve : String → Point → Except ε Unit) (addr : String) : Stage → Prop
  | .openStream => passes serve addr .dial = true
  | .writeHello => passes serve addr .dial = true ∧ passes serve addr .openStream = true
  | .readAck => passes serve addr .dial = true ∧ passes serve addr .openStream = true ∧
      passes serve addr .writeHello = true
  | .decodeAck => passes serve addr .dial = true ∧ passes serve addr .openStream = true ∧
      passes serve addr .writeHello = true ∧ passes serve addr .readAck = true

/-- Where `Reconnect` can be. -/
def Standing (serve : String → Point → Except ε Unit) (addrs : List String)
    (tried : List (String × Outcome)) : Phase N → Prop
  | .dial rest dialErr => NoneYet addrs tried rest ∧ dialErr = tried.findSome? undialled
  | .hello stage _ addr rest dialErr => NoneYet addrs tried (addr :: rest) ∧
      dialErr = tried.findSome? undialled ∧ passedUpTo serve addr stage
  | .returned (some (.dial addr)) => NoneYet addrs tried [] ∧
      tried.findSome? undialled = some addr
  | .returned (some .allFailed) => NoneYet addrs tried [] ∧ tried.findSome? undialled = none
  | _ => True

structure Accounts (serve : String → Point → Except ε Unit) (w : World ID N H) : Prop where
  tried : ∀ x ∈ w.attempt.tried, Tried serve x
  standing : Standing serve w.attempt.addrs w.attempt.tried w.phase

variable {w w' : World ID N H} {addr : String} {rest : List String} {d : Option String}
  {stage : Stage} {conn : ℕ}

theorem passes_iff {pt : Point} : passes serve addr pt = true ↔ serve addr pt = .ok () := by
  unfold passes
  cases serve addr pt <;> simp [Except.isOk, Except.toBool]

theorem passes_eq_false {pt : Point} :
    passes serve addr pt = false ↔ ∃ e, serve addr pt = .error e := by
  unfold passes
  cases serve addr pt <;> simp [Except.isOk, Except.toBool]

/-- A call that fails is the end for the address. -/
theorem answers_eq_false_of_stage (hup : passedUpTo serve addr stage)
    (hfail : passes serve addr (stagePoint stage) = false) : answers serve addr = false := by
  obtain ⟨e, he⟩ := passes_eq_false.mp hfail
  cases stage <;> simp_all [passedUpTo, stagePoint, passes_iff, answers, failure, dialWithDialer]

/-- The last call. -/
theorem answers_of_decodeAck (hup : passedUpTo serve addr .decodeAck)
    (hpass : passes serve addr .decodeAck = true) : answers serve addr = true := by
  simp_all [passedUpTo, passes_iff, answers, failure, dialWithDialer]

theorem passedUpTo_next {stage' : Stage} (hnext : stage.next = some stage')
    (hup : passedUpTo serve addr stage) (hpass : passes serve addr (stagePoint stage) = true) :
    passedUpTo serve addr stage' := by
  cases stage <;> cases hnext <;> simp_all [passedUpTo, stagePoint]

/-- One more address has been tried. -/
theorem Accounts.concat {o : Outcome} (h : Accounts serve w) (ho : Tried serve (addr, o)) :
    ∀ x ∈ (w.tried addr o).tried, Tried serve x :=
  List.forall_mem_append.mpr ⟨h.tried, List.forall_mem_singleton.mpr ho⟩

theorem answers_eq_false_of_dial (h : passes serve addr .dial = false) :
    answers serve addr = false := by
  obtain ⟨e, he⟩ := passes_eq_false.mp h
  simp [answers, failure, dialWithDialer, he]

theorem Tried.answers_eq_false {x : String × Outcome} (h : Tried serve x)
    (hx : ∀ c, x.2 ≠ .completed c) : answers serve x.1 = false := by
  obtain ⟨addr, o⟩ := x
  cases o with
  | dialFailed => exact answers_eq_false_of_dial h
  | failed stage => exact h.2
  | completed c => exact absurd rfl (hx c)

/-- All the addresses have failed. -/
theorem dialAny_error_of_noneYet {addrs : List String} {tried : List (String × Outcome)}
    (h : NoneYet addrs tried []) (ht : ∀ x ∈ tried, Tried serve x) :
    ∃ e, dialAny serve addrs = .error e := by
  obtain ⟨haddrs, hfailed⟩ := h
  rw [List.append_nil] at haddrs
  cases addrs with
  | nil => exact ⟨_, rfl⟩
  | cons a rest =>
    have hnone : (a :: rest).find? (answers serve) = none := by
      rw [haddrs, List.find?_eq_none]
      intro b hb
      obtain ⟨x, hx, rfl⟩ := List.mem_map.mp hb
      rw [Bool.not_eq_true]
      exact (ht x hx).answers_eq_false (hfailed x hx)
    rw [dialAny_eq serve (List.cons_ne_nil a rest), hnone]
    exact ⟨_, rfl⟩

theorem findSome?_undialled {tried : List (String × Outcome)}
    (hfailed : ∀ x ∈ tried, ∀ c, x.2 ≠ .completed c) (ht : ∀ x ∈ tried, Tried serve x) :
    tried.findSome? undialled = (tried.map Prod.fst).find? fun a => !passes serve a .dial := by
  induction tried with
  | nil => rfl
  | cons x tried ih =>
    have ih := ih (fun y hy => hfailed y (List.mem_cons_of_mem x hy)) fun y hy =>
      ht y (List.mem_cons_of_mem x hy)
    have hx := ht x List.mem_cons_self
    have hne := hfailed x List.mem_cons_self
    obtain ⟨addr, o⟩ := x
    rw [List.findSome?_cons, List.map_cons, List.find?_cons, ih]
    cases o with
    | dialFailed =>
      have hd : passes serve addr .dial = false := hx
      simp [undialled, hd]
    | failed stage =>
      have hd : passes serve addr .dial = true := hx.1
      simp [undialled, hd]
    | completed c => exact absurd rfl (hne c)

theorem findSome?_undialled_of_noneYet {addrs : List String} {tried : List (String × Outcome)}
    (h : NoneYet addrs tried []) (ht : ∀ x ∈ tried, Tried serve x) :
    tried.findSome? undialled = addrs.find? fun a => !passes serve a .dial := by
  obtain ⟨haddrs, hfailed⟩ := h
  rw [haddrs, List.append_nil, findSome?_undialled hfailed ht]

/-- The replay fails with an error of its own. -/
theorem Accounts.replay [DecidableEq N] {c : Choice N} {x : Attempts.Exchange} {names : List N}
    (h : Accounts serve w) (hn : Attempts.replayNext w (.replay x names) c = some w') :
    Accounts serve w' := by
  cases x <;> cases names <;> cases c <;> cases hn <;> exact ⟨h.tried, trivial⟩

variable [DecidableEq ID]

/-- `Dial` of the next address. -/
theorem Accounts.dial {c : Choice N} (h : Accounts serve w) (hp : w.phase = .dial (addr :: rest) d)
    (hc : conforms serve w (.step c) = true)
    (hn : Attempts.dialNext w (.dial (addr :: rest) d) c = some w') : Accounts serve w' := by
  have hstand := h.standing
  rw [hp] at hstand
  obtain ⟨hnone, rfl⟩ := hstand
  unfold conforms at hc
  rw [hp] at hc
  cases c with
  | ok =>
    cases hn
    exact ⟨h.tried, hnone, rfl, hc⟩
  | err =>
    cases hn
    have hfail : passes serve addr .dial = false := by simpa using hc
    refine ⟨h.concat hfail, hnone.next fun _ hx => (by cases hx), ?_⟩
    rw [World.tried, List.findSome?_append]
    cases w.attempt.tried.findSome? undialled <;> rfl
  | names ns => cases hn
  | order vs => cases hn

/-- `OpenStream`, `HELLO` and its reply. -/
theorem Accounts.hello {c : Choice N} (h : Accounts serve w)
    (hp : w.phase = .hello stage conn addr rest d) (hc : conforms serve w (.step c) = true)
    (hn : Attempts.dialNext w (.hello stage conn addr rest d) c = some w') : Accounts serve w' := by
  have hstand := h.standing
  rw [hp] at hstand
  obtain ⟨hnone, rfl, hup⟩ := hstand
  unfold conforms at hc
  rw [hp] at hc
  cases c with
  | ok =>
    simp only [Attempts.dialNext] at hn
    split at hn
    · rename_i stage' hnext
      cases hn
      exact ⟨h.tried, hnone, rfl, passedUpTo_next hnext hup hc⟩
    · rename_i hlast
      cases hn
      cases stage with
      | decodeAck =>
        exact ⟨h.concat (answers_of_decodeAck hup hc), trivial⟩
      | _ => cases hlast
  | err =>
    cases hn
    have hfail : passes serve addr (stagePoint stage) = false := by simpa using hc
    have hdialled : passes serve addr .dial = true := by
      cases stage <;> simp_all [passedUpTo]
    refine ⟨h.concat ⟨hdialled, answers_eq_false_of_stage hup hfail⟩,
      hnone.next fun _ hx => (by cases hx), ?_⟩
    rw [World.tried, List.findSome?_append]
    cases w.attempt.tried.findSome? undialled <;> rfl
  | names ns => cases hn
  | order vs => cases hn

/-- No address is left. -/
theorem Accounts.dialEnds {c : Choice N} (h : Accounts serve w) (hp : w.phase = .dial [] d)
    (hn : Attempts.dialNext w (.dial [] d) c = some w') : Accounts serve w' := by
  have hstand := h.standing
  rw [hp] at hstand
  obtain ⟨hnone, hd⟩ := hstand
  cases c with
  | ok =>
    cases d with
    | none =>
      cases hn
      exact ⟨h.tried, hnone, hd.symm⟩
    | some addr =>
      cases hn
      exact ⟨h.tried, hnone, hd.symm⟩
  | err => cases d <;> cases hn
  | names ns => cases d <;> cases hn
  | order vs => cases d <;> cases hn

variable [DecidableEq N]

theorem Accounts.step {a : Attempts.Act ID N H} (h : Accounts serve w)
    (hc : conforms serve w a = true) (hs : Attempts.step w a = some w') : Accounts serve w' := by
  cases a with
  | step c =>
    have hn : Attempts.next w c = some w' := hs
    cases hp : w.phase with
    | dial rest d =>
      rw [Attempts.next, hp] at hn
      cases rest with
      | nil => exact h.dialEnds hp hn
      | cons addr rest => exact h.dial hp hc hn
    | hello stage conn addr rest d =>
      rw [Attempts.next, hp] at hn
      exact h.hello hp hc hn
    | replay x names =>
      rw [Attempts.next, hp] at hn
      exact h.replay hn
    | _ =>
      have hm := Attempts.next_moves hn
      rw [hp] at hm
      cases hm <;> exact ⟨h.tried, trivial⟩
  | reconnect addrs =>
    simp only [Attempts.step] at hs
    split at hs
    · split at hs
      · cases hs
        exact ⟨fun x hx => (by cases hx), trivial⟩
      · cases hs
        exact ⟨fun x hx => (by cases hx), ⟨rfl, fun x hx => (by cases hx)⟩, rfl⟩
    · cases hs
  | expose name localAddr hdl =>
    simp only [Attempts.step] at hs
    split at hs
    · cases hs
      exact ⟨h.tried, trivial⟩
    · cases hs
  | other e =>
    simp only [Attempts.step] at hs
    split at hs
    · cases hs
      exact ⟨h.tried, h.standing⟩
    · cases hs

theorem reach_accounts [Inhabited ID]
    (h : (machine ID N H).ReachWhile (fun w a => conforms serve w a = true) w) :
    Accounts serve w := by
  refine Machine.ReachWhile.invariant (M := machine ID N H) (I := Accounts serve) ?_ ?_ h
  · exact ⟨fun x hx => (by cases hx), trivial⟩
  · exact fun w a w' _ hw hc hs => hw.step hc hs

/-- **`Reconnect` agrees with `DialAny`.** -/
theorem reconnect_agrees [Inhabited ID]
    (h : (machine ID N H).ReachWhile (fun w a => conforms serve w a = true) w) :
    (w.phase = .returned none → ∃ addr, dialAny serve w.attempt.addrs = .ok addr ∧
      (addr, .completed w.shared.conn) ∈ w.attempt.tried) ∧
    (∀ addr, w.phase = .returned (some (.dial addr)) →
      (∃ e, dialAny serve w.attempt.addrs = .error e) ∧
        w.attempt.addrs.find? (fun a => !passes serve a .dial) = some addr) ∧
    (w.phase = .returned (some .allFailed) →
      (∃ e, dialAny serve w.attempt.addrs = .error e) ∧
        ∀ a ∈ w.attempt.addrs, passes serve a .dial = true) := by
  have hw := reach_accounts h
  refine ⟨fun hp => ?_, fun addr hp => ?_, fun hp => ?_⟩
  · have hfirst := Attempts.reach_tries h.reach
    rw [hp] at hfirst
    obtain ⟨pre, addr, rest, haddrs, htried, hpre⟩ := hfirst
    refine ⟨addr, ?_, by simp [htried]⟩
    have hans : answers serve addr = true :=
      hw.tried (addr, .completed w.shared.conn) (by simp [htried])
    have hbefore : ∀ a ∈ pre.map Prod.fst, ¬ answers serve a = true := by
      intro a ha
      obtain ⟨x, hx, rfl⟩ := List.mem_map.mp ha
      rw [Bool.not_eq_true]
      exact (hw.tried x (by simp [htried, hx])).answers_eq_false (hpre x hx)
    rw [dialAny_eq serve (by simp [haddrs]), haddrs, List.find?_append,
      List.find?_eq_none.mpr hbefore, Option.none_or, List.find?_cons_of_pos hans]
  · have hstand := hw.standing
    rw [hp] at hstand
    obtain ⟨hnone, hfirst⟩ := hstand
    exact ⟨dialAny_error_of_noneYet hnone hw.tried,
      by rw [← findSome?_undialled_of_noneYet hnone hw.tried, hfirst]⟩
  · have hstand := hw.standing
    rw [hp] at hstand
    obtain ⟨hnone, hfirst⟩ := hstand
    refine ⟨dialAny_error_of_noneYet hnone hw.tried, fun a ha => ?_⟩
    rw [findSome?_undialled_of_noneYet hnone hw.tried, List.find?_eq_none] at hfirst
    simpa using hfirst a ha

/-- The first relay cannot be dialled and the second one does not take the control stream; the third
one answers. -/
def thirdUp : String → Point → Except ℕ Unit
  | "a", .dial => .error 7
  | "b", .openStream => .error 8
  | _, _ => .ok ()

/-- An attempt with the first two relays only, and one with all three. -/
theorem reconnect_agrees_third :
    ∃ w, (machine ℕ ℕ ℕ).ReachWhile (fun w a => conforms thirdUp w a = true) w ∧
      w.phase = .returned none ∧ w.attempt.addrs = ["b", "a", "c"] ∧
      ∃ addr, dialAny thirdUp ["b", "a", "c"] = .ok addr ∧
        (addr, .completed w.shared.conn) ∈ w.attempt.tried := by
  have hrun := Machine.reachWhile_of_run (M := machine ℕ ℕ ℕ) (C := conforms thirdUp)
    [.reconnect ["b", "a"], .step .ok, .step .err, .step .err, .step .ok, .step .ok,
      .reconnect ["b", "a", "c"], .step .ok, .step .err, .step .err, .step .ok, .step .ok,
      .step .ok, .step .ok, .step .ok, .step .ok, .step (.names []), .step .ok,
      .step (.order []), .step .ok] rfl
  exact ⟨_, hrun, rfl, rfl, (reconnect_agrees hrun).1 rfl⟩

end Reconnect

end OutRelayAgent.Failover
