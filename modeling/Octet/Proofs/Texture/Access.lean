import Octet.Proofs.Source.Access
import Octet.Proofs.Source.Incoming
import Octet.Proofs.Texture.Load

/-!
# Levels of any header

A header may have nothing to do with the bytes that it is used on. A level is read if its slot is in
use and its extent lies inside them, and refused with the reader where it was if not; no request
has any effect on a later one, and none makes room for more bytes than there are.

## Main definitions

* `afterLevels`: a reader after any levels of any headers were asked for.
* `ReadsExactly`: what is read of every level after that.

## Main statements

* `readsExactly_of_locates`: whatever gives access to its data is read exactly.
* `readLevel_exact`: so are a cursor, received bytes and a harmless stream, wherever they are.
-/

namespace Octet.Texture

section

variable {σ : Type} [Source σ]

/-- The reader after levels were asked for one after another, each by a header of its own, whatever
became of each. -/
def afterLevels : List (Header × Nat) → Reader σ → Reader σ
  | [], r => r
  | (header, level) :: rest, r =>
    match readLevel header level r with
    | .ok _ next | .error _ next => afterLevels rest next

/-- Whatever levels were asked for before, a level is read from where the slot of its header places
it and the reader stands behind it; or the slot is missing or not in use, or leads out of the data,
and the reader stays where it is and says so. No read was asked for more bytes than there are. -/
def ReadsExactly (data : Bytes) (source : σ) : Prop :=
  ∀ (earlier : List (Header × Nat)) (header : Header) (level : Nat),
    let r := afterLevels earlier (⟨source, false⟩ : Reader σ)
    let recorded := afterLevels earlier (⟨{ inner := source }, false⟩ : Reader (Source.Traced σ))
    (readLevel header level).Ends r
        (fun payload next => next.isOk ∧ ∃ h : level < levelLimit,
          let extent := header.levels[level]
          extent.length ≠ 0 ∧ extent.stop ≤ data.length ∧
            payload = (data.drop extent.offset.toNat).take extent.length.toNat ∧
            next.position = extent.stop)
        (fun e next => next.isOk ∧ next.position = r.position ∧
          ((∀ h : level < levelLimit, header.levels[level].length = 0) ∧
              e = .header (.emptyLevel level) ∨
            ∃ h : level < levelLimit,
              let extent := header.levels[level]
              extent.length ≠ 0 ∧ data.length < extent.stop ∧ e = .header
                (.levelPastEnd level extent.offset.toNat extent.stop data.length))) ∧
      ∀ event ∈ recorded.source.trace, event.1.AtMost data.length

variable {data : Bytes} {anywhere inside : σ → Nat → Prop} {r : Reader σ} {p : Nat}

theorem Header.payloadIn_eq_ok {header : Header} {level : Nat} {payload : Bytes} {extent : Extent}
    (h : header.payloadIn data level = .ok payload) (hslot : header.level? level = some extent) :
    extent.stop ≤ data.length ∧
      payload = (data.drop extent.offset.toNat).take extent.length.toNat := by
  simp only [payloadIn, hslot] at h
  grind

theorem Header.payloadIn_eq_error {header : Header} {level : Nat} {e : Error}
    (h : header.payloadIn data level = .error e) :
    header.level? level = none ∧ e = .header (.emptyLevel level) ∨
      ∃ extent, header.level? level = some extent ∧ data.length < extent.stop ∧
        e = .header (.levelPastEnd level extent.offset.toNat extent.stop data.length) := by
  unfold payloadIn at h
  grind

theorem afterLevels_stands (hsource : Source.Locates data anywhere inside)
    (h : r.Stands anywhere p) (requests : List (Header × Nat)) :
    ∃ q, (afterLevels requests r).Stands anywhere q := by
  induction requests generalizing r p with
  | nil => exact ⟨p, h⟩
  | cons request rest ih =>
    obtain ⟨header, level⟩ := request
    have hends := readLevel_ends_of_locates hsource h header level
    rw [afterLevels]
    cases hread : readLevel header level r with
    | ok payload next =>
      obtain ⟨-, extent, -, hnext⟩ := hends.of_ok hread
      exact ih hnext
    | error e next => exact ih (hends.of_error hread).2

theorem readsExactly_of_locates {source : σ} (hsource : Source.Locates data anywhere inside)
    (h : anywhere source p) : ReadsExactly data source := by
  intro earlier header level
  dsimp only
  obtain ⟨q, hr⟩ := afterLevels_stands hsource (r := ⟨source, false⟩) ⟨rfl, h⟩ earlier
  obtain ⟨_, -, -, htrace⟩ := afterLevels_stands hsource.traced
    (r := ⟨{ inner := source }, false⟩) ⟨rfl, h, by simp⟩ earlier
  refine ⟨?_, htrace⟩
  have hok {next : Reader σ} {q : Nat} (hnext : next.Stands anywhere q) :
      next.isOk = true ∧ next.position = q :=
    ⟨by simp [Reader.isOk, hnext.1], hsource.position hnext.2⟩
  apply (readLevel_ends_of_locates hsource hr header level).mono
  · rintro payload next ⟨hpayload, extent, hslot, hnext⟩
    obtain ⟨hstop, hbytes⟩ := Header.payloadIn_eq_ok hpayload hslot
    obtain ⟨hlevel, rfl, hlength⟩ := Header.level?_eq_some.mp hslot
    exact ⟨(hok hnext).1, hlevel, hlength, hstop, hbytes, (hok hnext).2⟩
  · rintro e next ⟨he, hnext⟩
    refine ⟨(hok hnext).1, (hok hnext).2.trans (hok hr).2.symm, ?_⟩
    rcases Header.payloadIn_eq_error he with ⟨hslot, rfl⟩ | ⟨extent, hslot, hlt, rfl⟩
    · exact .inl ⟨Header.length_eq_zero_of_level?_eq_none hslot, rfl⟩
    · obtain ⟨hlevel, rfl, hlength⟩ := Header.level?_eq_some.mp hslot
      exact .inr ⟨hlevel, hlength, hlt, rfl⟩

end

/-- Any header is safe on any bytes: in memory, received, or in a harmless stream that any client
has used before, from wherever the source has got to. A stream may have been opened past its end,
and its contents are no longer than offsets of 64 bits can say. -/
theorem readLevel_exact {τ α : Type} :
    (∀ cursor : Cursor, ReadsExactly cursor.data cursor) ∧
    (∀ session : Incoming τ, ReadsExactly session.connection.received session) ∧
    ∀ (stream : Stream) (source : StreamSource), stream.faults.Harmless →
      stream.content.length < UInt64.size → StreamSource.ofStream stream = .ok source →
      ∀ client : Client Source.Call Source.Reply StreamSource α,
        ReadsExactly stream.content (client.run Source.step source).state := by
  refine ⟨fun cursor => ?_, fun session => ?_, fun stream source hf hcontent hopen client => ?_⟩
  · exact readsExactly_of_locates (Cursor.walks cursor.data).locates ⟨rfl, rfl⟩
  · exact readsExactly_of_locates (Incoming.walks session.connection).locates ⟨rfl, rfl⟩
  · obtain ⟨q, hholds⟩ := StreamSource.holds_run hf hcontent hopen client
    exact readsExactly_of_locates (StreamSource.locates hf hcontent) hholds

/-- The stream brings two bytes at a time, or is interrupted, and was opened past its end. An extent
of the largest size and a slot that does not exist are asked for before one that ends with the
file. -/
theorem readLevel_exact_past_end :
    let stream : Stream :=
      { content := [1, 2, 3, 4, 5], cursor := 9, faults := .scheduled [0, 2] [] "" (some 2) }
    let client : Client Source.Call Source.Reply StreamSource Unit :=
      .call (.skip 7) fun _ _ => .done ()
    let levels : Vector Extent levelLimit := (Vector.replicate levelLimit {}).setIfInBounds 0 ⟨3, 2⟩
    let header : Header := { levels := levels.setIfInBounds 1 ⟨4294967295, 4294967295⟩ }
    ∃ source next, StreamSource.ofStream stream = .ok source ∧
      readLevel header 0 (afterLevels [(header, 1), (header, 99)]
        ⟨(client.run Source.step source).state, false⟩) = .ok [4, 5] next ∧
      next.isOk ∧ next.position = 5 := by
  intro stream client levels header
  have hf : stream.faults.Harmless := Faults.harmless_scheduled [0, 2] "" (by decide)
  obtain ⟨-, -, hstream⟩ := @readLevel_exact Unit Unit
  obtain ⟨opened, hseek, -⟩ := Stream.exists_seek_here_eq hf (by decide)
  have hopen : StreamSource.ofStream stream = .ok ⟨opened, 9, none⟩ := by
    simp only [StreamSource.ofStream, hseek]
    rfl
  obtain ⟨hread, -⟩ :=
    hstream stream _ hf (by decide) hopen client [(header, 1), (header, 99)] header 0
  have hlevel : header.levels[0] = ⟨3, 2⟩ := by decide
  refine ⟨⟨opened, 9, none⟩, ?_⟩
  cases hlast : readLevel header 0 (afterLevels [(header, 1), (header, 99)]
      ⟨(client.run Source.step ⟨opened, 9, none⟩).state, false⟩) with
  | ok payload next =>
    obtain ⟨hok, _, hfound⟩ := hread.of_ok hlast
    simp only [hlevel] at hfound
    obtain ⟨-, -, rfl, hposition⟩ := hfound
    exact ⟨next, hopen, rfl, hok, hposition⟩
  | error e next =>
    obtain ⟨-, -, hrefused⟩ := hread.of_error hlast
    simp only [hlevel] at hrefused
    rcases hrefused with ⟨hempty, -⟩ | ⟨_, -, hlt, -⟩
    · exact absurd (hempty (by decide)) (by decide)
    · exact absurd hlt (by decide)

end Octet.Texture
