import Octet.Proofs.Source.Contract
import Octet.Texture.Load

/-!
# Loading goes by what lies ahead

A chain of reads sees nothing of its source but the bytes ahead and the position. Where these are
the same, a header is loaded with the same outcome, whatever the sources are.

## Main definitions

* `Action.Agree`: two actions, on states of two kinds, that cannot be told apart.
* `Reader.Alike`: two chains at the same place of the same bytes.

## Main statements

* `Action.Agree.bind`: a sequence cannot be told apart from another one if its parts cannot.
* `load_agree`: loading goes by what lies ahead.
-/

namespace Octet

/-! ## Actions -/

namespace Action

variable {σ τ α β : Type} {alike : σ → τ → Prop}

/-- From states that are alike two actions have the same outcome and leave states that are alike. -/
def Agree (alike : σ → τ → Prop) (act : Action σ α) (act' : Action τ α) : Prop :=
  ∀ s t, alike s t →
    (act.outcome s).1 = (act'.outcome t).1 ∧ alike (act.outcome s).2 (act'.outcome t).2

theorem agree_conclude (outcome : Except Error α) :
    Agree alike (conclude outcome) (conclude outcome) := by
  intro s t h
  cases outcome <;> exact ⟨rfl, h⟩

theorem agree_modifyGet {f : σ → α × σ} {g : τ → α × τ}
    (h : ∀ s t, alike s t → (f s).1 = (g t).1 ∧ alike (f s).2 (g t).2) :
    Agree alike (modifyGet f) (modifyGet g) := fun s t hst =>
  ⟨congrArg Except.ok (h s t hst).1, (h s t hst).2⟩

theorem Agree.bind {act : Action σ α} {act' : Action τ α} {next : α → Action σ β}
    {next' : α → Action τ β} (h : Agree alike act act')
    (hnext : ∀ x, Agree alike (next x) (next' x)) :
    Agree alike (act >>= next) (act' >>= next') := by
  intro s t hst
  have hfirst := h s t hst
  simp only [outcome, Bind.bind, EStateM.bind] at hfirst ⊢
  cases hact : act s with
  | ok x s' =>
    cases hact' : act' t with
    | ok y t' =>
      simp only [hact, hact'] at hfirst ⊢
      obtain ⟨hx, hnext'⟩ := hfirst
      obtain rfl := Except.ok.inj hx
      exact hnext x s' t' hnext'
    | error e t' => simp [hact, hact'] at hfirst
  | error e s' =>
    cases hact' : act' t with
    | ok y t' => simp [hact, hact'] at hfirst
    | error e' t' =>
      simp only [hact, hact'] at hfirst ⊢
      exact ⟨congrArg Except.error (Except.error.inj hfirst.1), hfirst.2⟩

end Action

/-! ## Readers -/

namespace Reader

variable {σ τ : Type} [Source σ] [Source τ]

/-- Both chains have failed or neither has; they are at the same position, with the same bytes ahead
of them. -/
structure Alike (sound : σ → Prop) (ahead : σ → Bytes) (sound' : τ → Prop) (ahead' : τ → Bytes)
    (r : Reader σ) (q : Reader τ) : Prop where
  failed : r.failed = q.failed
  sound_left : sound r.source
  sound_right : sound' q.source
  ahead : ahead r.source = ahead' q.source
  position : r.position = q.position

variable {sound : σ → Prop} {ahead : σ → Bytes} {sound' : τ → Prop} {ahead' : τ → Bytes}
  (hsource : Source.Yields sound ahead) (hsource' : Source.Yields sound' ahead')

theorem finish_agree : Action.Agree (Alike sound ahead sound' ahead') finish finish := by
  intro r q h
  simp only [Action.outcome, finish, h.failed, h.position]
  cases q.failed <;> exact ⟨rfl, h⟩

include hsource hsource'

theorem Alike.fill {r : Reader σ} {q : Reader τ} (h : Alike sound ahead sound' ahead' r q)
    (want : Nat) : (r.fill want).1 = (q.fill want).1 ∧
      Alike sound ahead sound' ahead' (r.fill want).2 (q.fill want).2 := by
  obtain ⟨s, failed⟩ := r
  obtain ⟨t, failed'⟩ := q
  obtain rfl : failed = failed' := h.failed
  cases failed with
  | true => exact ⟨rfl, h⟩
  | false =>
    obtain ⟨hread, hsound, hahead, hposition⟩ := hsource.read want h.sound_left
    obtain ⟨hread', hsound', hahead', hposition'⟩ := hsource'.read want h.sound_right
    rw [h.ahead] at hread hahead hposition
    have hdelivery := hread.trans hread'.symm
    refine ⟨?_, ?_, hsound, hsound', hahead.trans hahead'.symm, ?_⟩
    · simp only [Reader.fill, hdelivery]
      rfl
    · simp only [Reader.fill, hdelivery]
      rfl
    · exact hposition.trans ((congrArg (· + _) h.position).trans hposition'.symm)

theorem read_agree (t : Scalar) (current : t.Value) :
    Action.Agree (Alike sound ahead sound' ahead') (modifyGet (read t current))
      (modifyGet (read t current)) := by
  apply Action.agree_modifyGet
  intro r q h
  obtain ⟨hfilled, hnext⟩ := h.fill hsource hsource' t.width
  simp only [read, hfilled]
  exact ⟨trivial, hnext⟩

theorem readArray_agree (t : Scalar) {n : Nat} (current : Vector t.Value n) :
    Action.Agree (Alike sound ahead sound' ahead') (modifyGet (readArray t current))
      (modifyGet (readArray t current)) := by
  apply Action.agree_modifyGet
  intro r q h
  obtain ⟨hfilled, hnext⟩ := h.fill hsource hsource' (n * t.width)
  simp only [readArray, hfilled]
  exact ⟨trivial, hnext⟩

end Reader

/-! ## Headers -/

namespace Texture

open Reader

variable {σ τ : Type} [Source σ] [Source τ] {sound : σ → Prop} {ahead : σ → Bytes}
  {sound' : τ → Prop} {ahead' : τ → Bytes} (hsource : Source.Yields sound ahead)
  (hsource' : Source.Yields sound' ahead')
include hsource hsource'

theorem Preamble.read_agree (current : Preamble) :
    Action.Agree (Alike sound ahead sound' ahead') (Preamble.read current)
      (Preamble.read current) := by
  unfold Preamble.read
  refine (Reader.read_agree hsource hsource' .u32 0).bind fun found => finish_agree.bind fun _ => ?_
  split
  · refine (Reader.read_agree hsource hsource' .u32 current.version).bind fun version => ?_
    exact finish_agree.bind fun _ => Action.agree_conclude (.ok _)
  · exact Action.agree_conclude (.error _)

theorem Header.read_agree (current : Header) :
    Action.Agree (Alike sound ahead sound' ahead') (Header.read current) (Header.read current) := by
  have hread := Reader.read_agree hsource hsource'
  have hreadArray := Reader.readArray_agree hsource hsource' .u32 (Vector.replicate levelLimit 0)
  unfold Header.read
  refine (hread .u8 0).bind fun code => (hread .bool false).bind fun hasMips =>
    (hread .u16 0).bind fun width => (hread .u16 0).bind fun height =>
    hreadArray.bind fun offsets => hreadArray.bind fun lengths => finish_agree.bind fun _ => ?_
  split
  · exact Action.agree_conclude (.error _)
  · exact Action.agree_conclude (.ok _)

/-- Loading goes by what lies ahead. -/
theorem load_agree : Action.Agree (Alike sound ahead sound' ahead') load load := by
  unfold load
  refine (Preamble.read_agree hsource hsource' {}).bind fun preamble =>
    (Action.agree_conclude preamble.layout).bind fun version => ?_
  exact Header.read_agree hsource hsource' { version := preamble.version }

end Texture

end Octet
