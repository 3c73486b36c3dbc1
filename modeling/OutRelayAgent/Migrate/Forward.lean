import OutRelayAgent.Migrate.Model
import Mathlib.Data.List.Nodup
import Mathlib.Data.List.Range
import Mathlib.Tactic.Common

/-!
# What a migration does to the initiator's bytes

`MigrateToDirect` sends its positions and swaps; it never reads the responder's, so nothing that
the initiator wrote on the relay is written again on the direct stream. What the responder had
not read off the relay when it goes over to the direct stream is gone.

* `Split`: what the initiator's transport accepted is what the relay stream carried, followed by
  what the direct stream carried, and the responder reads the first before the second.
* `forward_prefix_iff`: in every reachable state, what the responder has returned is a prefix of
  what the initiator wrote exactly when it has returned no byte of the direct stream or the relay
  stream holds no byte it has not read.
* `forward_skips`: two bytes on the relay, one of them read, a migration, a third byte.
-/

namespace OutRelayAgent.Migrate

open Lib

variable {β : Type} {L : ResumeLib (Cell β)} {s s' : Net L} {a : Act β} {d : Dir β}
  {iw ir : Path} {r : List (Cell β)}

/-- The direction `d`, of which `r` has been returned off the relay, between a writer whose inner is
`iw` and a reader whose inner is `ir`. -/
structure Split (d : Dir β) (iw ir : Path) (r : List (Cell β)) : Prop where
  returned : d.returned = r ++ d.viaDirect
  accepted : d.accepted = r ++ d.onRelay ++ d.overDirect
  writing : iw = .relay ∨ d.writer.path = some .relay → d.overDirect = []
  reading : ir = .relay ∨ d.reader.path = some .relay → d.viaDirect = []
  writer_direct : d.writer.path = some .direct → iw = .direct
  reader_direct : d.reader.path = some .direct → ir = .direct
  stamped : d.accepted.map Prod.snd = List.range d.accepted.length

/-- A step that moves no bytes and leaves both calls alone. -/
theorem Split.frame {d' : Dir β} (h : Split d iw ir r) (ha : d'.accepted = d.accepted)
    (hw : d'.writer = d.writer) (hr : d'.relay.inbox = d.relay.inbox)
    (hd : d'.direct.inbox = d.direct.inbox) (hp : d'.reader = d.reader)
    (ht : d'.returned = d.returned) (hv : d'.viaDirect = d.viaDirect) : Split d' iw ir r := by
  have ho : d'.overDirect = d.overDirect := by simp only [Dir.overDirect, hv, hp, hd]
  refine ⟨?_, ?_, ?_, ?_, ?_, ?_, ?_⟩
  · rw [ht, hv]; exact h.returned
  · rw [ha, ho, show d'.onRelay = d.onRelay by simp only [Dir.onRelay, hp, hr]]
    exact h.accepted
  · rw [hw, ho]; exact h.writing
  · rw [hp, hv]; exact h.reading
  · rw [hw]; exact h.writer_direct
  · rw [hp]; exact h.reader_direct
  · rw [ha]; exact h.stamped

/-- A `Read` that holds nothing comes or goes. -/
theorem Split.setReader {p : ReadPc β} (h : Split d iw ir r) (hd : ∀ q, d.reader.held q = [])
    (hp : ∀ q, p.held q = []) (hpath : p.path = none ∨ p.path = some ir) :
    Split { d with reader := p } iw ir r := by
  have ho : Dir.overDirect { d with reader := p } = d.overDirect := by
    simp only [Dir.overDirect, hd, hp]
  refine ⟨h.returned, ?_, ?_, ?_, h.writer_direct, ?_, h.stamped⟩
  · rw [ho, show Dir.onRelay { d with reader := p } = d.onRelay by simp only [Dir.onRelay, hd, hp]]
    exact h.accepted
  · rw [ho]; exact h.writing
  · intro hr
    refine h.reading (Or.inl ?_)
    rcases hr with hr | hr
    · exact hr
    · rcases hpath with hn | hn <;> simp_all
  · intro hr
    rcases hpath with hn | hn <;> simp_all

theorem Split.capture (h : Split d iw ir r) (hr : d.reader = .idle) :
    Split { d with reader := .captured ir } iw ir r :=
  h.setReader (fun _ => by rw [hr]; rfl) (fun _ => rfl) (Or.inr rfl)

theorem Split.release {p : Path} (h : Split d iw ir r) (hr : d.reader = .captured p) :
    Split { d with reader := .idle } iw ir r :=
  h.setReader (fun _ => by rw [hr]; rfl) (fun _ => rfl) (Or.inl rfl)

/-- A `Write` comes, captures the writer's inner, or goes. -/
theorem Split.setWriter {p : WritePc β} (h : Split d iw ir r)
    (hp : p.path = none ∨ p.path = some iw) : Split { d with writer := p } iw ir r := by
  refine ⟨h.returned, h.accepted, ?_, h.reading, ?_, h.reader_direct, h.stamped⟩
  · intro hw
    refine h.writing (Or.inl ?_)
    rcases hw with hw | hw
    · exact hw
    · rcases hp with hn | hn <;> simp_all
  · intro hw
    rcases hp with hn | hn <;> simp_all

theorem Split.take {p : Path} {n : ℕ} (h : Split d iw ir r) (hr : d.reader = .captured p) :
    Split (d.take p n) iw ir r := by
  -- what is taken moves from the lane into the call
  have ho : (d.take p n).overDirect = d.overDirect := Dir.overDirect_take hr
  have hpath : (d.take p n).reader.path = d.reader.path := by
    rw [Dir.take_reader, hr]; rfl
  refine ⟨?_, ?_, ?_, ?_, ?_, ?_, ?_⟩
  · simpa using h.returned
  · rw [ho, Dir.onRelay_take hr, Dir.take_accepted]; exact h.accepted
  · rw [ho, Dir.take_writer]; exact h.writing
  · rw [hpath, Dir.take_viaDirect]; exact h.reading
  · rw [Dir.take_writer]; exact h.writer_direct
  · rw [hpath]; exact h.reader_direct
  · rw [Dir.take_accepted]; exact h.stamped

theorem Split.give {p : Path} {cs : List (Cell β)} (h : Split d iw ir r)
    (hr : d.reader = .got p cs) : ∃ r', Split (d.give p cs) iw ir r' := by
  cases p with
  | relay =>
    have hv : d.viaDirect = [] := h.reading (Or.inr (by rw [hr]; rfl))
    have ho : (d.give .relay cs).overDirect = d.overDirect := Dir.overDirect_give hr
    refine ⟨r ++ cs, ?_, ?_, ?_, ?_, h.writer_direct, ?_, h.stamped⟩
    · simp [Dir.give, h.returned, hv]
    · rw [ho]
      simp [Dir.give, Dir.onRelay, ReadPc.held, h.accepted, hr]
    · rw [ho]; exact h.writing
    · exact fun _ => hv
    · intro hp; exact absurd hp (by simp [Dir.give, ReadPc.path])
  | direct =>
    have hir : ir = .direct := h.reader_direct (by rw [hr]; rfl)
    have ho : (d.give .direct cs).overDirect = d.overDirect := Dir.overDirect_give hr
    refine ⟨r, ?_, ?_, ?_, ?_, h.writer_direct, ?_, h.stamped⟩
    · simp [Dir.give, h.returned]
    · rw [ho]
      simp [Dir.give, Dir.onRelay, ReadPc.held, h.accepted, hr]
    · rw [ho]; exact h.writing
    · intro hp; exact absurd hp (by simp [Dir.give, ReadPc.path, hir])
    · intro hp; exact absurd hp (by simp [Dir.give, ReadPc.path])

theorem Split.accept {p : Path} {bs rest all : List β} (h : Split d iw ir r)
    (hw : d.writer = .captured p all) : Split (d.accept p bs rest) iw ir r := by
  have hst : (d.accept p bs rest).accepted.map Prod.snd =
      List.range (d.accept p bs rest).accepted.length := by
    simp [h.stamped, List.zipIdx_map_snd, List.range_add, List.range'_eq_map_range]
  have hpath : (d.accept p bs rest).writer.path = none := rfl
  cases p with
  | relay =>
    -- nothing has gone over the direct stream yet
    have hod : d.overDirect = [] := h.writing (Or.inr (by rw [hw]; rfl))
    have ho : (d.accept .relay bs rest).overDirect = d.overDirect := rfl
    refine ⟨h.returned, ?_, fun _ => ho.trans hod, h.reading, ?_, h.reader_direct, hst⟩
    · have hacc := h.accepted
      rw [hod, List.append_nil] at hacc
      rw [ho, hod, Dir.onRelay_accept, Dir.accept_accepted, List.append_nil, ← List.append_assoc,
        ← hacc]
    · rw [hpath]; exact fun hn => absurd hn (by simp)
  | direct =>
    have hiw : iw = .direct := h.writer_direct (by rw [hw]; rfl)
    refine ⟨h.returned, ?_, ?_, h.reading, ?_, h.reader_direct, hst⟩
    · rw [Dir.overDirect_accept, show (d.accept .direct bs rest).onRelay = d.onRelay from rfl,
        ← List.append_assoc, ← h.accepted, Dir.accept_accepted]
    · rw [hpath, hiw]; exact fun hn => absurd hn (by simp)
    · rw [hpath]; exact fun hn => absurd hn (by simp)

/-- The inners only go from the relay to the direct stream. -/
theorem Split.mono {iw' ir' : Path} (h : Split d iw ir r) (hw : iw' = iw ∨ iw' = .direct)
    (hr : ir' = ir ∨ ir' = .direct) : Split d iw' ir' r := by
  refine ⟨h.returned, h.accepted, ?_, ?_, ?_, ?_, h.stamped⟩
  · rintro (hp | hp)
    · rcases hw with hw | hw <;> simp_all [h.writing]
    · exact h.writing (Or.inr hp)
  · rintro (hp | hp)
    · rcases hr with hr | hr <;> simp_all [h.reading]
    · exact h.reading (Or.inr hp)
  · intro hp
    rcases hw with hw | hw
    · exact hw.trans (h.writer_direct hp)
    · exact hw
  · intro hp
    rcases hr with hr | hr
    · exact hr.trans (h.reader_direct hp)
    · exact hr

/-- The direction in which the responder reads. -/
def Forward (s : Net L) : Prop :=
  ∃ r, Split (s.dirs .responder) (s.wraps .initiator).inner (s.wraps .responder).inner r

/-- A step that does not touch the direction, and takes inners only to the direct stream. -/
theorem Forward.frame (hi : Forward s) (hd : s'.dirs .responder = s.dirs .responder)
    (hw : (s'.wraps .initiator).inner = (s.wraps .initiator).inner ∨
      (s'.wraps .initiator).inner = .direct)
    (hr : (s'.wraps .responder).inner = (s.wraps .responder).inner ∨
      (s'.wraps .responder).inner = .direct) : Forward s' := by
  obtain ⟨r, h⟩ := hi
  exact ⟨r, hd ▸ h.mono hw hr⟩

theorem forward_step (hi : Forward s) (hm : Moves s a s') : Forward s' := by
  obtain ⟨r, h⟩ := hi
  cases hm with
  | readCapture x hr =>
    cases x with
    | initiator => exact ⟨r, by simpa using h⟩
    | responder => exact ⟨r, by simpa using h.capture hr⟩
  | innerRead x n p hr _ _ =>
    cases x with
    | initiator => exact ⟨r, by simpa using h⟩
    | responder => exact ⟨r, by simpa using h.take hr⟩
  | onRead x p cs hr =>
    cases x with
    | initiator => exact ⟨r, by simpa using h⟩
    | responder => simpa [Forward] using h.give hr
  | readErr x p hr =>
    cases x with
    | initiator => exact ⟨r, by simpa using h⟩
    | responder => exact ⟨r, by simpa using h.release hr⟩
  | readEof x p hr _ =>
    cases x with
    | initiator => exact ⟨r, by simpa using h⟩
    | responder =>
      have h1 : Split { s.dirs .responder with reader := .idle, eof := true } _ _ r :=
        (h.release hr).frame rfl rfl rfl rfl rfl rfl rfl
      exact ⟨r, by simpa using h1⟩
  | write x bs _ =>
    cases x with
    | initiator => exact ⟨r, by simpa [Role.peer] using h.setWriter (Or.inl rfl)⟩
    | responder => exact ⟨r, by simpa [Role.peer] using h⟩
  | writeCapture x bs _ =>
    cases x with
    | initiator => exact ⟨r, by simpa [Role.peer] using h.setWriter (Or.inr rfl)⟩
    | responder => exact ⟨r, by simpa [Role.peer] using h⟩
  | innerWrite x k p bs hw =>
    cases x with
    | initiator => exact ⟨r, by simpa [Role.peer] using h.accept hw⟩
    | responder => exact ⟨r, by simpa [Role.peer] using h⟩
  | onWrite x cs rest _ =>
    cases x with
    | initiator =>
      have hp : (if rest.isEmpty then WritePc.idle else WritePc.todo rest).path = none := by
        split <;> rfl
      exact ⟨r, by simpa [Role.peer] using h.setWriter (Or.inl hp)⟩
    | responder => exact ⟨r, by simpa [Role.peer] using h⟩
  | writeErr x bs _ =>
    cases x with
    | initiator => exact ⟨r, by simpa [Role.peer] using h.setWriter (Or.inl rfl)⟩
    | responder => exact ⟨r, by simpa [Role.peer] using h⟩
  | closeInner x p _ =>
    cases x with
    | initiator =>
      have h1 : Split ((s.dirs .responder).close p) _ _ r :=
        h.frame (by simp) (by simp) (by simp) (by simp) (by simp) (by simp) (by simp)
      exact ⟨r, by simpa [Role.peer] using h1⟩
    | responder => exact ⟨r, by simpa [Role.peer] using h⟩
  | writeResumeErr _ =>
    have h1 : Split ((s.dirs .responder).close .direct) _ _ r :=
      h.frame rfl rfl rfl rfl rfl rfl rfl
    exact ⟨r, by simpa using h1⟩
  | cancelResponder _ =>
    have h1 : Split { s.dirs .responder with
        relay := { (s.dirs .responder).relay with cancelled := true } } _ _ r :=
      h.frame rfl rfl rfl rfl rfl rfl rfl
    exact ⟨r, by simpa using h1⟩
  | applyCheckpoint x p | closeWrite x | close x | closeCapture x _ =>
    cases x <;> exact ⟨r, by simpa using h⟩
  | openStream _ | openErr _ | resumePayload _ | writeResume _ | parseFrame _ _ | lookup _ _
  | retransmitFrom _ _ => exact ⟨r, h⟩
  | swapInitiator _ =>
    exact Forward.frame ⟨r, h⟩ rfl (Or.inr (by simp)) (Or.inl (by simp))
  | swapResponder _ =>
    exact Forward.frame ⟨r, h⟩ rfl (Or.inl (by simp)) (Or.inr (by simp))
  | cancelInitiator _ | parseErr _ | unknown _ _ | evicted _ _ | writeGap _ | writeGapErr k _ =>
    exact Forward.frame ⟨r, h⟩ (by simp [Net.refuse]) (Or.inl rfl) (Or.inl rfl)

theorem forward_reach (h : (machine L).Reach s) : Forward s := by
  refine Machine.Reach.invariant (M := machine L) ?_ (fun _ _ _ hi hs => ?_) h
  · refine ⟨[], rfl, rfl, fun _ => rfl, fun _ => rfl, ?_, ?_, rfl⟩
    · exact fun hn => absurd hn (by simp [machine, init, WritePc.path])
    · exact fun hn => absurd hn (by simp [machine, init, ReadPc.path])
  · exact forward_step hi (step_moves hs)

/-- Cells accepted in turn are distinct. -/
theorem Split.nodup (h : Split d iw ir r) : d.accepted.Nodup :=
  List.Nodup.of_map Prod.snd (h.stamped ▸ List.nodup_range)

/-- Once a byte of the direct stream has been returned, `Read` is done with the relay. -/
theorem Split.onRelay_eq (h : Split d iw ir r) (hv : d.viaDirect ≠ []) :
    d.onRelay = d.relay.inbox := by
  have hpath : d.reader.path ≠ some .relay := fun hp => hv (h.reading (Or.inr hp))
  have hheld : d.reader.held .relay = [] := by
    cases hr : d.reader with
    | idle | captured _ => rfl
    | got p cs =>
      cases p with
      | relay => exact absurd (by rw [hr]; rfl) hpath
      | direct => rfl
  rw [Dir.onRelay, hheld, List.nil_append]

/-- **When a migration keeps the initiator's bytes.** What the responder's `Read` has returned is a
prefix of what the initiator wrote exactly when none of it came off the direct stream, or nothing
the initiator wrote on the relay stream is left there unread. -/
theorem forward_prefix_iff (h : (machine L).Reach s) :
    (s.dirs .responder).returned <+: (s.dirs .responder).accepted ↔
      (s.dirs .responder).viaDirect = [] ∨ (s.dirs .responder).relay.inbox = [] := by
  obtain ⟨r, hs⟩ := forward_reach h
  generalize s.dirs .responder = d at hs ⊢
  have hacc := hs.accepted
  have hdup := hs.nodup
  rw [hs.returned]
  by_cases hv : d.viaDirect = []
  · refine iff_of_true ?_ (Or.inl hv)
    rw [hv, List.append_nil, hacc, List.append_assoc]
    exact List.prefix_append r _
  rw [hs.onRelay_eq hv, Dir.overDirect] at hacc
  constructor
  · intro hp
    refine Or.inr (by_contra fun hin => ?_)
    rw [hacc] at hp hdup
    obtain ⟨c, vs, hc⟩ := List.exists_cons_of_ne_nil hv
    obtain ⟨e, es, he⟩ := List.exists_cons_of_ne_nil hin
    -- the first byte off the direct stream would be the first one left on the relay
    rw [List.append_assoc, List.prefix_append_right_inj, hc, he] at hp
    have hce : c = e := (List.cons_prefix_cons.mp hp).1
    have hd := (List.nodup_append.mp hdup).2.2 e (by simp [he]) c (by simp [hc])
    exact hd hce.symm
  · rintro (hv' | hin)
    · exact absurd hv' hv
    · rw [hacc, hin, List.append_nil, List.append_assoc, List.prefix_append_right_inj]
      exact List.prefix_append _ _

/-- The initiator writes two bytes on the relay and the responder reads the first. The migration
completes on both sides, and the initiator writes a third byte, which the responder reads. -/
def skipRun : List (Act ℕ) :=
  [.write .initiator [1, 2], .writeCapture .initiator, .innerWrite .initiator 2,
   .onWrite .initiator, .readCapture .responder, .innerRead .responder 1, .onRead .responder,
   .openStream, .resumePayload, .writeResume, .swapInner .initiator, .cancelRead .initiator,
   .parseFrame, .lookup, .retransmitFrom, .writeGap, .swapInner .responder,
   .cancelRead .responder, .write .initiator [3], .writeCapture .initiator,
   .innerWrite .initiator 1, .onWrite .initiator, .readCapture .responder,
   .innerRead .responder 1, .onRead .responder]

/-- Both sides have completed the migration, and the responder has returned the first and the third
byte, never the second. -/
theorem forward_skips : ∃ s, (machine (ResumeLib.ringLib (Cell ℕ) 8)).Reach s ∧
    s.ipc = .done ∧ s.rpc = .done ∧
    (s.dirs .responder).accepted.map Prod.fst = [1, 2, 3] ∧
    (s.dirs .responder).returned.map Prod.fst = [1, 3] ∧
    ¬ (s.dirs .responder).returned <+: (s.dirs .responder).accepted := by
  refine ⟨_, Machine.reach_of_run skipRun rfl, rfl, rfl, rfl, rfl, ?_⟩
  decide

theorem forward_prefix_iff_skipRun : ∃ s, (machine (ResumeLib.ringLib (Cell ℕ) 8)).Reach s ∧
    s.ipc = .done ∧ s.rpc = .done ∧
    ((s.dirs .responder).returned <+: (s.dirs .responder).accepted ↔
      (s.dirs .responder).viaDirect = [] ∨ (s.dirs .responder).relay.inbox = []) := by
  have hr := Machine.reach_of_run (M := machine (ResumeLib.ringLib (Cell ℕ) 8)) skipRun rfl
  exact ⟨_, hr, rfl, rfl, forward_prefix_iff hr⟩

end OutRelayAgent.Migrate
