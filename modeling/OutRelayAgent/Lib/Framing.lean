import Mathlib.Data.List.Infix
import Mathlib.Tactic.Common

/-!
# Frames on a byte stream

A parser takes bytes off a stream one by one until what it has is a frame. `Framing` is a format of
frames, `Framing.Lawful` what is needed of it: a parser that begins at the beginning of a frame has
a frame exactly when it has taken all bytes of it. `Aligned` says where a single parser stands in
what the writer has written. `Aligned.read` is the rule for one byte.
-/

namespace OutRelayAgent.Lib

/-- What the bytes taken so far are. -/
inductive Parsed (F : Type*)
  | more
  | frame (f : F)
  | bad

structure Framing (β F : Type*) where
  encode : F → List β
  parse : List β → Parsed F

namespace Framing

variable {β F : Type*}

structure Lawful (φ : Framing β F) : Prop where
  encode_ne_nil : ∀ f, φ.encode f ≠ []
  parse_encode : ∀ f, φ.parse (φ.encode f) = .frame f
  parse_part : ∀ f bs, bs <+: φ.encode f → bs ≠ φ.encode f → φ.parse bs = .more

/-- The bytes of a sequence of frames. -/
def encodeAll (φ : Framing β F) (fs : List F) : List β := fs.flatMap φ.encode

/-- A parser has taken `got`, `input` is still on the stream, and together they are the frames
`rest`, the first of which the parser is in the middle of. -/
structure Aligned (φ : Framing β F) (got input : List β) (rest : List F) : Prop where
  bytes : got ++ input = φ.encodeAll rest
  part : got = [] ∨ ∃ f fs, rest = f :: fs ∧ got <+: φ.encode f ∧ got ≠ φ.encode f

variable {φ : Framing β F} {got input : List β} {rest : List F} {b : β} {f : F}

theorem aligned_nil : φ.Aligned [] [] [] := ⟨rfl, .inl rfl⟩

/-- The writer writes one more frame. -/
theorem Aligned.write (h : φ.Aligned got input rest) (f : F) :
    φ.Aligned got (input ++ φ.encode f) (rest ++ [f]) := by
  refine ⟨?_, h.part.imp_right ?_⟩
  · rw [← List.append_assoc, h.bytes]
    simp [encodeAll]
  · rintro ⟨g, fs, rfl, hpart⟩
    exact ⟨g, fs ++ [f], rfl, hpart⟩

/-- The parser is in the middle of the first frame that is left, if it is in the middle of one. -/
theorem Aligned.first (hφ : φ.Lawful) (h : φ.Aligned got (b :: input) rest) :
    ∃ f fs, rest = f :: fs ∧ got <+: φ.encode f ∧ got ≠ φ.encode f := by
  rcases h.part with rfl | hpart
  · cases rest with
    | nil => cases h.bytes
    | cons f fs => exact ⟨f, fs, rfl, List.nil_prefix, (hφ.encode_ne_nil f).symm⟩
  · exact hpart

/-- **One more byte**: the parser has the first frame, or is still in the middle of it. -/
theorem Aligned.read (hφ : φ.Lawful) (h : φ.Aligned got (b :: input) rest) :
    (∃ f fs, rest = f :: fs ∧ φ.parse (got ++ [b]) = .frame f ∧ φ.Aligned [] input fs) ∨
    φ.parse (got ++ [b]) = .more ∧ φ.Aligned (got ++ [b]) input rest := by
  obtain ⟨f, fs, rfl, ⟨more, hmore⟩, hne⟩ := h.first hφ
  have hbytes : got ++ b :: input = got ++ (more ++ φ.encodeAll fs) := by
    rw [h.bytes, ← List.append_assoc, hmore]
    rfl
  -- The byte is the next one of the frame.
  cases more with
  | nil => exact absurd (by simpa using hmore) hne
  | cons b' more =>
    obtain ⟨rfl, hrest⟩ := List.cons.inj (List.append_cancel_left hbytes)
    have hgot : got ++ [b] ++ more = φ.encode f := by simpa using hmore
    by_cases hlast : got ++ [b] = φ.encode f
    · have hnil : more = [] := List.append_right_eq_self.mp (hgot.trans hlast.symm)
      exact .inl ⟨f, fs, rfl, hlast ▸ hφ.parse_encode f, by simpa [hnil] using hrest, .inl rfl⟩
    · refine .inr ⟨hφ.parse_part f _ ⟨more, hgot⟩ hlast, ?_, .inr ⟨f, fs, rfl, ⟨more, hgot⟩, hlast⟩⟩
      simpa using h.bytes

/-- When the stream is empty, the parser is between two frames. -/
theorem Aligned.empty (hφ : φ.Lawful) (h : φ.Aligned got [] rest) : got = [] ∧ rest = [] := by
  have hbytes := h.bytes
  rcases h.part with rfl | ⟨f, fs, rfl, hpre, hne⟩
  · cases rest with
    | nil => exact ⟨rfl, rfl⟩
    | cons f fs => simp [encodeAll, hφ.encode_ne_nil] at hbytes
  · -- All bytes are taken, so the parser has at least those of the first frame.
    have hlen := hpre.length_le
    have hall : got = φ.encode f ++ φ.encodeAll fs := by simpa [encodeAll] using hbytes
    have hge : (φ.encode f).length ≤ got.length := by simp [hall]
    exact absurd (hpre.eq_of_length (Nat.le_antisymm hlen hge)) hne

end Framing

end OutRelayAgent.Lib
