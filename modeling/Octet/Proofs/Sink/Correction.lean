import Octet.Proofs.Sink.Exact

/-!
# Corrections that touch nothing else

A correction inside the written bytes lays its data over the contents, all of it or a first part,
and leaves the position where it is. One that reaches past the position is refused and does nothing.
The position is not always the end of the contents: a sink may have been made halfway up a stream.

## Main definitions

* `Sink.Corrects`: the contract.
* `StreamSink.Sound`: what holds of a stream sink whose calls have all succeeded.

## Main statements

* `Buffer.corrects`, `Outgoing.corrects`, `StreamSink.corrects`: every sink keeps the contract, and
  only a stream has a fault to report inside its bounds.
-/

namespace Octet

/-- The contents are what `content` reads off a sink. A sink is sound while its calls succeed, and
a correction of a sound one inside the written bytes is refused by a fault of the sink at most. -/
structure Sink.Corrects {σ : Type} [Sink σ] (content : σ → Bytes) (sound : σ → Prop)
    (fault : σ → Error → Prop) : Prop where
  position_le : ∀ {s : σ}, sound s → Sink.position s ≤ (content s).length
  write : ∀ {s : σ} (data : Bytes), sound s →
    (Sink.write data).Ends s (fun _ t => sound t) fun _ _ => True
  overwrite : ∀ {s : σ} {offset} (data : Bytes), sound s →
    offset + data.length ≤ Sink.position s → (Sink.overwrite offset data).Ends s
      (fun count t => count = data.length ∧ sound t ∧ Sink.position t = Sink.position s ∧
        content t = (content s).overlay offset data)
      (fun e t => fault s e ∧ e.isPatchOutOfRange = false ∧
        Sink.position t = Sink.position s ∧
        ∃ k, content t = (content s).overlay offset (data.take k))
  refuse : ∀ {s : σ} {offset} (data : Bytes), Sink.position s < offset + data.length →
    Sink.overwrite offset data s =
      .error (.patchOutOfRange offset data.length (Sink.position s)) s
  flush : ∀ {s : σ}, sound s →
    (Sink.flush : Action σ Unit).Ends s (fun _ t => sound t) fun _ _ => True

theorem Buffer.corrects :
    Sink.Corrects Buffer.content (fun _ => True) fun _ _ => False where
  position_le _ := Nat.le_refl _
  write {s} data _ := by
    cases hact : Sink.write data s with
    | ok _ _ | error _ _ => simp [Action.Ends, hact]
  overwrite {s offset} data _ hle := by
    have hexact : Sink.Exact s.content.length Holds := exact
    obtain ⟨t, hact, ht⟩ := hexact.overwrite data rfl (Nat.le_refl _) hle
    have hposition : t.content.length = s.content.length := by
      rw [ht, Bytes.length_overlay_of_le hle]
    exact Action.ends_of_ok hact ⟨rfl, trivial, hposition, ht⟩
  refuse {s _} data hlt :=
    have hexact : Sink.Exact s.content.length Holds := exact
    hexact.refuse data rfl hlt
  flush _ := trivial

theorem Outgoing.corrects {τ : Type} [Transport τ] :
    Sink.Corrects (staged (τ := τ)) (fun _ => True) fun _ _ => False where
  position_le _ := Nat.le_refl _
  write {s} data _ := (write_ends data s).mono (fun _ _ _ => trivial) fun _ _ _ => trivial
  overwrite {s offset} data _ hle := by
    apply Action.ends_of_ok (overwrite_eq offset data s ▸ if_pos hle)
    exact ⟨rfl, trivial, Bytes.length_overlay_of_le hle, rfl⟩
  refuse {s offset} data hlt := by
    rw [overwrite_eq]
    exact if_neg (Nat.not_le.mpr hlt)
  flush {s} _ := by
    cases hact : (Sink.flush : Action (Outgoing τ) Unit) s with
    | ok _ _ | error _ _ => simp [Action.Ends, hact]

namespace StreamSink

variable {stream : Stream} {sink : StreamSink}

/-- The cursor is at the position, and not past the end. -/
def Sound (faults : Faults) (sink : StreamSink) : Prop :=
  sink.stream.cursor = sink.position ∧ sink.position ≤ sink.stream.content.length ∧
    sink.stream.faults = faults

/-- A stream fails for reasons of its own. A harmless one has none, apart from positions that no
offset can say. -/
def Fault (faults : Faults) (sink : StreamSink) (e : Error) : Prop :=
  (∃ fault, e = .stream fault) ∧ (faults.Harmless → UInt64.size ≤ sink.position)

theorem sound_of_ofStream (hopen : ofStream stream = .ok sink)
    (hcursor : stream.cursor ≤ stream.content.length) : sink.Sound stream.faults := by
  obtain ⟨hposition, hcontent, hmoved, hfaults⟩ := moved_of_ofStream hopen
  exact ⟨hmoved, by rwa [hposition, hcontent], hfaults⟩

theorem corrects (faults : Faults) :
    Sink.Corrects (fun sink : StreamSink => sink.stream.content) (Sound faults)
      (Fault faults) where
  position_le h := h.2.1
  write {s} data h := by
    obtain ⟨hcursor, hle, hfaults⟩ := h
    apply (write_stores data s).mono
    · intro _ next ⟨_, hposition, hstored⟩
      have hnext := hstored.cursor_le (hcursor ▸ hle)
      have hcursor' : next.stream.cursor = next.position := by
        rw [hstored.2.1, hposition, hcursor]
      exact ⟨hcursor', hcursor' ▸ hnext, hstored.2.2.trans hfaults⟩
    · exact fun _ _ _ => trivial
  overwrite {s offset} data h hinside := by
    obtain ⟨-, hle, hfaults⟩ := h
    have hin : offset + data.length ≤ s.position := hinside
    apply (overwrite_stores hin).mono
    · intro _ next ⟨hcount, hposition, hpatched, hcursor⟩
      have hcontent := hpatched.content_eq (by omega)
      refine ⟨hcount, ⟨hcursor.trans hposition.symm, ?_, hpatched.2.trans hfaults⟩, hposition,
        hcontent⟩
      rwa [hposition, hcontent, Bytes.length_overlay_of_le (by omega)]
    · rintro _ next ⟨⟨fault, rfl⟩, hposition, hf, k, _, hpatched, _⟩
      exact ⟨⟨⟨fault, rfl⟩, hfaults ▸ hf⟩, rfl, hposition, k, hpatched.content_eq (by omega)⟩
  refuse data hlt := overwrite_of_lt hlt
  flush {s} h := by
    apply Action.ends_on.mpr
    apply Stream.flush_ends.mono
    · intro _ next ⟨hcontent, hcursor, hfaults⟩
      exact ⟨hcursor.trans h.1, hcontent ▸ h.2.1, hfaults.trans h.2.2⟩
    · exact fun _ _ _ => trivial

end StreamSink

end Octet
