import Octet.Proofs.Source.Contract
import Octet.Proofs.Stream
import Octet.Source.Stream

/-!
# Sources on streams

## Main definitions

* `StreamSource.Stands`: a source on a stream that contains given bytes.

## Main statements

* `Stream.readUpTo_delivers`: reading brings bytes from the cursor on, whatever goes wrong.
* `Stream.readUpTo_of_harmless`: reading brings all bytes there are, up to the count asked for.
* `StreamSource.yields`: a source on a harmless stream yields what lies behind the cursor.
* `StreamSource.walks`: it walks over what the stream contains.
-/

namespace Octet

namespace Stream

variable {s t : Stream} {want : Nat} {bytes : Bytes} {fault : StreamFault}

theorem Moved.trans {s t u : Stream} {p q : Nat} (h : s.Moved p t) (h' : t.Moved q u) :
    s.Moved q u :=
  ⟨h'.1.trans h.1, h'.2.1, h'.2.2.trans h.2.2⟩

theorem get_unmoved {answer : Transfer Bytes} (h : s.get want = (answer, t))
    (hanswer : ∀ bytes, answer ≠ .done bytes) : s.Moved s.cursor t := by
  simp only [get] at h
  split at h <;> cases h
  · exact ⟨rfl, rfl, rfl⟩
  · exact ⟨rfl, rfl, rfl⟩
  · exact absurd rfl (hanswer _)

theorem get_done (h : s.get want = (.done bytes, t)) :
    (∃ limit, s.faults.transfer s.transfers = .upTo limit ∧
      bytes = (s.content.drop s.cursor).take (cut limit want)) ∧
      s.Moved (s.cursor + bytes.length) t := by
  simp only [get] at h
  split at h <;> cases h
  next limit hturn => exact ⟨⟨limit, hturn, rfl⟩, rfl, rfl, rfl⟩

theorem get_ne_failed_of_harmless (hf : s.faults.Harmless) :
    s.get want ≠ (.failed fault, t) := by
  simp only [get]
  rcases hf.transfer s.transfers with hturn | ⟨limit, hturn, -⟩ <;> simp [hturn]

/-- Reading brings the bytes from the cursor on and moves the cursor behind them. Unless it is
refused, it brings all there are, up to the count asked for. -/
theorem readUpTo_delivers (want : Nat) (s : Stream) :
    (s.readUpTo want).1.bytes <+: (s.content.drop s.cursor).take want ∧
      s.Moved (s.cursor + (s.readUpTo want).1.bytes.length) (s.readUpTo want).2 ∧
      match (s.readUpTo want).1.count with
      | .ok count => count = (s.readUpTo want).1.bytes.length ∧
          (s.faults.Productive →
            (s.readUpTo want).1.bytes = (s.content.drop s.cursor).take want)
      | .error _ => ¬ s.faults.Harmless := by
  fun_induction readUpTo want s with
  | case1 s => exact ⟨by simp [Delivery.ofBytes], ⟨rfl, rfl, rfl⟩, rfl, by simp [Delivery.ofBytes]⟩
  | case2 want s hwant next hget =>
    obtain ⟨⟨limit, hturn, hbytes⟩, hmoved⟩ := get_done hget
    refine ⟨List.nil_prefix, hmoved, rfl, fun hf => ?_⟩
    have hcut := cut_pos (fun h => hf _ (hturn.trans (congrArg _ h))) (Nat.pos_of_ne_zero hwant)
    rcases List.take_eq_nil_iff.mp hbytes.symm with h | h
    · omega
    · rw [h, List.take_nil]
      rfl
  | case3 want s hwant bytes next hget hbytes rest ih =>
    obtain ⟨⟨limit, hturn, heq⟩, hcontent, hcursor, hfaults⟩ := get_done hget
    rw [show readUpTo (want - bytes.length) next = rest from rfl] at ih
    clear_value rest
    obtain ⟨⟨more, outcome⟩, last⟩ := rest
    obtain ⟨hfront, hmoved, hcount⟩ := ih
    have hle := cut_le limit want
    have hlen : bytes.length ≤ want := by grind
    have hsplit : (s.content.drop s.cursor).take want =
        bytes ++ (next.content.drop next.cursor).take (want - bytes.length) := by
      have hfirst : (s.content.drop s.cursor).take bytes.length = bytes := by
        rw [heq, List.length_take, ← List.take_eq_take_min]
      rw [hcontent, hcursor, ← List.drop_drop, ← Nat.add_sub_cancel' hlen, List.take_add, hfirst]
      simp
    refine ⟨?_, ?_, ?_⟩
    · rw [hsplit]
      exact (List.prefix_append_right_inj bytes).mpr hfront
    · rw [hcursor, Nat.add_assoc, ← List.length_append] at hmoved
      exact ⟨hmoved.1.trans hcontent, hmoved.2.1, hmoved.2.2.trans hfaults⟩
    · cases outcome with
      | ok count =>
        dsimp only at hcount
        obtain ⟨rfl, hall⟩ := hcount
        refine ⟨List.length_append.symm, fun hf => ?_⟩
        rw [hsplit, ← hall (hfaults ▸ hf)]
        rfl
      | error e => exact hfaults ▸ hcount
  | case4 want s hwant next hget ih =>
    obtain ⟨hcontent, hcursor, hfaults⟩ := get_unmoved hget (by simp)
    rw [hcontent, hcursor, hfaults] at ih
    obtain ⟨hfront, hmoved, hcount⟩ := ih
    exact ⟨hfront, ⟨hmoved.1.trans hcontent, hmoved.2.1, hmoved.2.2.trans hfaults⟩, hcount⟩
  | case5 want s hwant fault next hget =>
    exact ⟨List.nil_prefix, get_unmoved hget (by simp), fun hf => get_ne_failed_of_harmless hf hget⟩

/-- Reading brings all bytes there are, up to the count asked for. -/
theorem readUpTo_of_harmless (hf : s.faults.Harmless) (want : Nat) :
    (s.readUpTo want).1 = .ofBytes ((s.content.drop s.cursor).take want) ∧
      s.Moved (s.cursor + ((s.content.drop s.cursor).take want).length) (s.readUpTo want).2 := by
  obtain ⟨-, hmoved, hcount⟩ := s.readUpTo_delivers want
  generalize s.readUpTo want = read at hmoved hcount
  obtain ⟨⟨bytes, count⟩, next⟩ := read
  cases count with
  | ok count =>
    dsimp only at hmoved hcount ⊢
    obtain ⟨rfl, hall⟩ := hcount
    obtain rfl := hall hf.productive
    exact ⟨rfl, hmoved⟩
  | error e => exact absurd hf hcount

end Stream

namespace StreamSource

/-- The source is on a stream that contains `data`, the cursor and the position at the same place,
and what it knows of the size is right. -/
structure Stands (faults : Faults) (data : Bytes) (source : StreamSource) (p : Nat) : Prop where
  content : source.stream.content = data
  cursor : source.stream.cursor = p
  faults : source.stream.faults = faults
  position : source.position = p
  le : p ≤ data.length
  known : ∀ size, source.known = some size → size = data.length

variable {faults : Faults} {data : Bytes} {source : StreamSource} {p q : Nat}

theorem Stands.moved (h : source.Stands faults data p) {stream : Stream}
    (hmoved : source.stream.Moved q stream) (hle : q ≤ data.length) :
    Stands faults data { source with stream, position := q } q :=
  ⟨hmoved.1.trans h.content, hmoved.2.1, hmoved.2.2.trans h.faults, rfl, hle, h.known⟩

theorem Stands.read (hf : faults.Harmless) (h : source.Stands faults data p) (want : Nat) :
    (source.read want).1 = .ofBytes ((data.drop p).take want) ∧
      (source.read want).2.Stands faults data (p + min want (data.length - p)) := by
  obtain ⟨hbytes, hmoved⟩ := Stream.readUpTo_of_harmless (h.faults ▸ hf) want
  rw [h.content, h.cursor] at hbytes hmoved
  have hle := h.le
  have hlen : ((data.drop p).take want).length = min want (data.length - p) := by simp
  refine ⟨hbytes, ?_⟩
  have hnext := h.moved hmoved (by omega)
  rw [hlen] at hnext
  simp only [StreamSource.read, hbytes, Delivery.ofBytes, h.position, hlen]
  exact hnext

/-- On a harmless stream only places past the reach of offsets are refused. -/
theorem seek_of_harmless (hf : source.stream.faults.Harmless) (place : Place)
    (hplace : source.stream.Leads q place) (hlt : q < UInt64.size) :
    (onStream (Stream.seek place)).Ends source
      (fun found next => found = q ∧
        ∃ stream, source.stream.Moved q stream ∧ next = { source with stream })
      (fun _ _ => False) := by
  apply Action.ends_on.mpr
  apply (Stream.seek_ends hplace).mono
  · exact fun _ stream ⟨hfound, hmoved⟩ => ⟨hfound, stream, hmoved, rfl⟩
  · exact fun _ _ ⟨_, hge⟩ => absurd (hge hf) (Nat.not_le.mpr hlt)

/-! ### Wherever the cursor is -/

/-- The bytes of the stream from its cursor on. -/
def ahead (source : StreamSource) : Bytes :=
  source.stream.content.drop source.stream.cursor

/-- It does not matter where the source takes itself to be. -/
theorem yields :
    Source.Yields (fun source : StreamSource => source.stream.faults.Harmless) ahead where
  read {source} want hf := by
    obtain ⟨hbytes, hcontent, hcursor, hfaults⟩ := Stream.readUpTo_of_harmless hf want
    refine ⟨hbytes, hfaults ▸ hf, ?_, ?_⟩
    · change (source.stream.readUpTo want).2.content.drop (source.stream.readUpTo want).2.cursor =
        source.ahead.drop want
      rw [hcontent, hcursor, List.length_take, ← List.drop_drop, ← List.drop_eq_drop_min]
      rfl
    · change source.position + (source.stream.readUpTo want).1.bytes.length = _
      rw [hbytes, Delivery.ofBytes, List.length_take]
      rfl

/-- The source is on a stream that contains `data`, at any position, past the end too. What it knows
of the size is right, and while it knows nothing the cursor is at the position. -/
structure Holds (faults : Faults) (data : Bytes) (source : StreamSource) (p : Nat) : Prop where
  content : source.stream.content = data
  faults : source.stream.faults = faults
  position : source.position = p
  known : ∀ size, source.known = some size → size = data.length
  fresh : source.known = none → source.stream.cursor = p ∧ p < UInt64.size

theorem Stands.holds (hdata : data.length < UInt64.size) (h : source.Stands faults data p) :
    source.Holds faults data p where
  content := h.content
  faults := h.faults
  position := h.position
  known := h.known
  fresh _ := ⟨h.cursor, Nat.lt_of_le_of_lt h.le hdata⟩

/-- A probe finds the size and brings the cursor to the position. -/
theorem Holds.probe (hf : faults.Harmless) (hdata : data.length < UInt64.size)
    (h : source.Holds faults data p) (hp : p < UInt64.size) :
    (probe).Ends source
      (fun size next => size = data.length ∧ next.Holds faults data p ∧
        next.known = some data.length ∧ next.stream.cursor = p)
      (fun _ _ => False) := by
  rw [StreamSource.probe, Action.ends_bind]
  apply (seek_of_harmless (q := data.length) (h.faults ▸ hf) (.stop 0)
    (by simp [Stream.Leads, h.content]) hdata).imp
  rintro _ _ ⟨rfl, stop, hstop, rfl⟩
  rw [Action.ends_bind, Action.ends_get, Action.ends_bind]
  apply (seek_of_harmless (q := p) (hstop.2.2.trans h.faults ▸ hf) (.start source.position)
    h.position hp).imp
  rintro _ _ ⟨-, back, hback, rfl⟩
  rw [Action.ends_bind, Action.ends_modify, Action.ends_pure]
  obtain ⟨hcontent, hcursor, hfaults⟩ := hstop.trans hback
  exact ⟨rfl, ⟨hcontent.trans h.content, hfaults.trans h.faults, h.position, by simp, by simp⟩,
    rfl, hcursor⟩

theorem Holds.size (hf : faults.Harmless) (hdata : data.length < UInt64.size)
    (h : source.Holds faults data p) :
    source.size.1 = some data.length ∧ source.size.2.Holds faults data p ∧
      source.size.2.known = some data.length ∧
      (source.stream.cursor = p → source.size.2.stream.cursor = p) := by
  rw [StreamSource.size]
  cases hknown : source.known with
  | some size =>
    obtain rfl := h.known size hknown
    exact ⟨rfl, h, hknown, id⟩
  | none =>
    obtain ⟨size, next, hprobe, rfl, hnext, hfound, hcursor⟩ :=
      (h.probe hf hdata (h.fresh hknown).2).exists_ok (by simp)
    simp only [hprobe]
    exact ⟨trivial, hnext, hfound, fun _ => hcursor⟩

theorem Holds.seek (hf : faults.Harmless) (hdata : data.length < UInt64.size)
    (h : source.Holds faults data p) (target : Nat) :
    (StreamSource.seek target).Ends source
      (fun _ next => target ≤ data.length ∧ next.Stands faults data target)
      (fun e next => e = .seekOutOfRange target data.length ∧ data.length < target ∧
        next.Holds faults data p ∧ (source.stream.cursor = p → next.stream.cursor = p)) := by
  obtain ⟨hsize, hsized, -, hcursor⟩ := h.size hf hdata
  rw [StreamSource.seek, Action.ends_bind, Action.ends_modifyGet, hsize]
  generalize source.size.2 = found at hsized hcursor
  dsimp only
  rw [Action.ends_bind, Action.ends_conclude, checkSeek]
  by_cases hle : target ≤ data.length
  · simp only [hle, if_true]
    apply (seek_of_harmless (q := target) (hsized.faults ▸ hf) (.start target) rfl
      (Nat.lt_of_le_of_lt hle hdata)).bind
    · rintro _ _ ⟨-, stream, ⟨hcontent, hcursor, hfaults⟩, rfl⟩
      exact ⟨trivial, hcontent.trans hsized.content, hcursor, hfaults.trans hsized.faults, rfl,
        hle, hsized.known⟩
    · exact fun _ _ h => h.elim
  · simp only [hle, if_false]
    exact ⟨trivial, Nat.not_le.mp hle, hsized, hcursor⟩

/-- Any part of the contents is within reach. -/
theorem locates (hf : faults.Harmless) (hdata : data.length < UInt64.size) :
    Source.Locates data (Holds faults data) (Stands faults data) where
  position h := h.position
  weaken h := h.holds hdata
  size h := ⟨(h.size hf hdata).1, (h.size hf hdata).2.1⟩
  seek {s p target} h hle := by
    obtain ⟨⟨⟩, next, hseek, -, hnext⟩ := (h.seek hf hdata target).exists_ok
      fun _ _ ⟨_, hlt, _⟩ => absurd hle (Nat.not_le.mpr hlt)
    exact ⟨next, hseek, hnext⟩
  read {s p want} h hle := by
    obtain ⟨hread, hnext⟩ := h.read hf want
    have hwant : min want (data.length - p) = want := by omega
    rw [hwant] at hnext
    exact ⟨hread, hnext.holds hdata⟩

/-! ### Within the contents -/

theorem Holds.stands (h : source.Holds faults data p) (hcursor : source.stream.cursor = p)
    (hle : p ≤ data.length) : source.Stands faults data p :=
  ⟨h.content, hcursor, h.faults, h.position, hle, h.known⟩

theorem Stands.size (hf : faults.Harmless) (hdata : data.length < UInt64.size)
    (h : source.Stands faults data p) :
    source.size.1 = some data.length ∧ source.size.2.Stands faults data p := by
  obtain ⟨hsize, hsized, -, hcursor⟩ := (h.holds hdata).size hf hdata
  exact ⟨hsize, hsized.stands (hcursor h.cursor) h.le⟩

theorem Stands.seek (hf : faults.Harmless) (hdata : data.length < UInt64.size)
    (h : source.Stands faults data p) (target : Nat) :
    (StreamSource.seek target).Ends source
      (fun _ next => target ≤ data.length ∧ next.Stands faults data target)
      (fun e next => e = .seekOutOfRange target data.length ∧ data.length < target ∧
        next.Stands faults data p) := by
  apply ((h.holds hdata).seek hf hdata target).mono
  · exact fun _ _ h => h
  · exact fun _ _ ⟨he, hlt, hnext, hcursor⟩ => ⟨he, hlt, hnext.stands (hcursor h.cursor) h.le⟩

theorem Stands.skip (hf : faults.Harmless) (hdata : data.length < UInt64.size / 2)
    (h : source.Stands faults data p) (count : Nat) :
    (StreamSource.skip count).Ends source
      (fun passed next => passed = min count (data.length - p) ∧
        next.Stands faults data (p + passed))
      (fun _ _ => False) := by
  obtain ⟨hsize, hsized⟩ := h.size hf (by omega)
  have hle := h.le
  rw [StreamSource.skip, Action.ends_bind, Action.ends_modifyGet, Action.ends_bind,
    Action.ends_get, Action.ends_bind, hsize, hsized.position]
  generalize source.size.2 = source at hsized
  have hpassed : ((min count (data.length - p) : Nat) : Int).bmod UInt64.size =
      (min count (data.length - p) : Nat) :=
    Int.bmod_eq_of_le (by omega) (by omega)
  apply (seek_of_harmless (q := p + min count (data.length - p)) (hsized.faults ▸ hf) _ _
    (by omega)).imp
  · rintro _ _ ⟨-, stream, hmoved, rfl⟩
    rw [Action.ends_bind, Action.ends_modify, Action.ends_pure]
    refine ⟨rfl, ?_⟩
    simp only [hsized.position]
    exact hsized.moved hmoved (by omega)
  · simp only [Stream.Leads, hsized.cursor, hpassed]
    omega

/-- A source on a harmless stream walks over what the stream contains. Distances are sent to the
stream as signed numbers of 64 bits. -/
theorem walks (hf : faults.Harmless) (hdata : data.length < UInt64.size / 2) :
    Source.Walks data (Stands faults data) where
  position h := h.position
  le h := h.le
  read want h := h.read hf want
  skip count h := h.skip hf hdata count
  size h := h.size hf (by omega)
  seek target h := h.seek hf (by omega) target

/-- A source starts where the stream's cursor is, which stays there. It knows no size yet. -/
theorem moved_of_ofStream {stream : Stream} (h : ofStream stream = .ok source) :
    source.position < UInt64.size ∧ source.known = none ∧
      stream.Moved source.position source.stream := by
  unfold ofStream at h
  split at h <;> cases h
  next position next hseek =>
    have hlt := Stream.lt_of_seek_eq_ok hseek
    obtain ⟨rfl, hcontent, hcursor, hfaults⟩ := (Stream.seek_ends stream.leads_here).of_ok hseek
    exact ⟨hlt, rfl, hcontent, hcursor, hfaults⟩

/-- A source can be made of every harmless stream with the cursor inside the contents. -/
theorem exists_ofStream {stream : Stream} (hf : stream.faults.Harmless)
    (hle : stream.cursor ≤ stream.content.length)
    (hdata : stream.content.length < UInt64.size / 2) :
    ∃ source, ofStream stream = .ok source ∧
      source.Stands stream.faults stream.content stream.cursor := by
  obtain ⟨next, heq, hcontent, hcursor, hfaults⟩ := Stream.exists_seek_here_eq hf (by omega)
  refine ⟨⟨next, stream.cursor, none⟩, by simp only [ofStream, heq], ?_⟩
  exact ⟨hcontent, hcursor, hfaults, rfl, hle, by simp⟩

end StreamSource

end Octet
