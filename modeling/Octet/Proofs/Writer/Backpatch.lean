import Mathlib.Algebra.GroupWithZero.Nat
import Octet.Proofs.Sink.Buffer
import Octet.Proofs.Writer.Script

/-!
# Corrections act on the pieces of a script

A session follows a plan: what its sink holds is the rendered plan behind what was there before,
and its handles lie at the offsets of their pieces. Later pieces do not move earlier ones, and a
commit replaces the bytes of one piece by as many others.

## Main definitions

* `Script.offset`: where a piece lies behind those before it.
* `Script.Plan.Sound`: handles and commits refer to cells of their kind.
* `Script.Follows`: the invariant of a session and a plan.

## Main statements

* `Script.Follows.call`: a call that has a plan succeeds and follows it.
* `Script.run_eq_render`: a script writes the bytes of its plan.
-/

namespace Octet

namespace Script

/-! ## Pieces -/

def Piece.width : Piece → Nat
  | fixed data => data.length
  | cell t => t.width

/-- Where a piece lies behind those before it. -/
def offset (pieces : List Piece) (place : Nat) : Nat := ((pieces.take place).map Piece.width).sum

/-- From `place` on there are `count` cells of a kind. -/
def Cells (pieces : List Piece) (place : Nat) (t : Scalar) (count : Nat) : Prop :=
  place ≤ pieces.length ∧ ∀ i, i < count → pieces[place + i]? = some (.cell t)

variable {pieces more : List Piece} {place count i : Nat} {t : Scalar}

theorem Cells.append (h : Cells pieces place t count) : Cells (pieces ++ more) place t count := by
  obtain ⟨hle, hcell⟩ := h
  refine ⟨by grind, fun i hi => ?_⟩
  obtain ⟨hlt, hget⟩ := List.getElem?_eq_some_iff.mp (hcell i hi)
  rw [List.getElem?_append_left hlt, hcell i hi]

theorem cells_replicate (pieces : List Piece) (t : Scalar) (count : Nat) :
    Cells (pieces ++ List.replicate count (.cell t)) pieces.length t count := by
  refine ⟨by simp, fun i hi => ?_⟩
  rw [List.getElem?_append_right (by omega), Nat.add_sub_cancel_left,
    List.getElem?_replicate, if_pos hi]

theorem Cells.tail (h : Cells pieces place t (count + 1)) : Cells pieces (place + 1) t count := by
  obtain ⟨-, hcell⟩ := h
  obtain ⟨hlt, -⟩ := List.getElem?_eq_some_iff.mp (hcell 0 (by omega))
  refine ⟨by omega, fun i hi => ?_⟩
  rw [Nat.add_assoc, Nat.add_comm 1 i]
  exact hcell (i + 1) (by omega)

theorem Cells.get (h : Cells pieces place t count) (hi : i < count) :
    Cells pieces (place + i) t 1 := by
  obtain ⟨-, hcell⟩ := h
  obtain ⟨hlt, -⟩ := List.getElem?_eq_some_iff.mp (hcell i hi)
  refine ⟨by omega, fun j hj => ?_⟩
  obtain rfl : j = 0 := by omega
  exact hcell i hi

theorem Cells.head (h : Cells pieces place t (count + 1)) : Cells pieces place t 1 :=
  h.get (Nat.zero_lt_succ count)

theorem offset_append (h : place ≤ pieces.length) :
    offset (pieces ++ more) place = offset pieces place := by
  rw [offset, List.take_append_of_le_length h, offset]

theorem offset_le (pieces : List Piece) (place : Nat) :
    offset pieces place ≤ offset pieces pieces.length := by
  have hsplit := congrArg (fun l => (l.map Piece.width).sum) (List.take_append_drop place pieces)
  simp only [List.map_append, List.sum_append] at hsplit
  rw [offset, offset, List.take_length, ← hsplit]
  exact Nat.le_add_right ..

theorem Cells.offset_add (h : Cells pieces place t count) (hi : i ≤ count) :
    offset pieces (place + i) = offset pieces place + i * t.width := by
  induction i with
  | zero => simp
  | succ i ih =>
    have hcell := h.2 i hi
    have hstep : offset pieces (place + (i + 1)) = offset pieces (place + i) + t.width := by
      rw [offset, ← Nat.add_assoc, List.take_add_one, hcell]
      simp [offset, Piece.width]
    rw [hstep, ih (by omega), Nat.add_mul, Nat.one_mul, Nat.add_assoc]

/-! ## Plans -/

namespace Plan

/-- Handles and commits refer to cells of their kind. -/
structure Sound (plan : Plan) : Prop where
  handles : ∀ handle ∈ plan.handles,
    Cells plan.pieces handle.place handle.kind (handle.count.getD 1)
  commits : ∀ commit ∈ plan.commits, Cells plan.pieces commit.1 commit.2.kind 1

variable {plan : Plan} {piece : Piece} {value : t.Value}

theorem sound_empty : Sound {} where
  handles := by simp
  commits := by simp

@[simp] theorem mem_commitsTo {datum : Datum} :
    datum ∈ plan.commitsTo place ↔ (place, datum) ∈ plan.commits := by
  simp [commitsTo]

/-- Nothing was committed to a piece that is still to come. -/
theorem Sound.commitsTo_eq_nil (h : plan.Sound) (hplace : plan.pieces.length ≤ place) :
    plan.commitsTo place = [] := by
  apply List.eq_nil_iff_forall_not_mem.mpr
  intro datum hdatum
  have hcell := (h.commits _ (mem_commitsTo.mp hdatum)).2 0 Nat.one_pos
  obtain ⟨hlt, -⟩ := List.getElem?_eq_some_iff.mp hcell
  omega

@[simp, grind =] theorem length_encodings (plan : Plan) :
    plan.encodings.length = plan.pieces.length := by
  simp [encodings]

/-- Every piece takes as many bytes in the end as when it was written. -/
theorem Sound.map_length_encodings (h : plan.Sound) :
    plan.encodings.map List.length = plan.pieces.map Piece.width := by
  apply List.ext_getElem
  · simp
  · intro i _ hi
    rw [List.length_map] at hi
    simp only [encodings, List.getElem_map, List.getElem_mapIdx]
    cases hpiece : plan.pieces[i] with
    | fixed data => rfl
    | cell t =>
      cases hlast : (plan.commitsTo i).getLast? with
      | none => simp [Piece.encode, Piece.width, hlast]
      | some datum =>
        have hmem := mem_commitsTo.mp (List.mem_of_getLast? hlast)
        have hcell := (h.commits _ hmem).2 0 Nat.one_pos
        have hkind : t = datum.kind := by
          simpa [List.getElem?_eq_getElem hi, hpiece] using hcell
        simp [Piece.encode, Piece.width, hlast, Datum.encode, hkind]

theorem Sound.exists_encoding (h : plan.Sound) (hcell : Cells plan.pieces place t 1) :
    ∃ old, plan.encodings[place]? = some old ∧ old.length = t.width := by
  have hwidths := congrArg (·[place]?) h.map_length_encodings
  simp only [List.getElem?_map] at hwidths
  have hplace : plan.pieces[place]? = some (.cell t) := hcell.2 0 Nat.one_pos
  rw [hplace] at hwidths
  obtain ⟨old, hold, hlen⟩ := Option.map_eq_some_iff.mp hwidths
  exact ⟨old, hold, hlen⟩

theorem Sound.length_encodings_take (h : plan.Sound) (place : Nat) :
    (plan.encodings.take place).flatten.length = offset plan.pieces place := by
  rw [List.length_flatten, List.map_take, h.map_length_encodings, offset, List.map_take]

theorem Sound.length_render (h : plan.Sound) :
    plan.render.length = offset plan.pieces plan.pieces.length := by
  rw [render, ← h.length_encodings_take, ← plan.length_encodings, List.take_length]

/-- More pieces leave those before them alone. -/
theorem Sound.encodings_append (h : plan.Sound) (more : List Piece) :
    encodings { plan with pieces := plan.pieces ++ more } =
      plan.encodings ++ more.map (·.encode []) := by
  rw [encodings, List.mapIdx_append]
  congr 1
  apply List.ext_getElem
  · simp
  · intro i hi _
    rw [List.getElem_mapIdx, List.getElem_map]
    exact congrArg _ (h.commitsTo_eq_nil (Nat.le_add_left ..))

/-- A commit replaces the bytes of its piece. -/
theorem encodings_commit (hcell : Cells plan.pieces place t 1) (value : t.Value) :
    encodings { plan with commits := plan.commits ++ [(place, ⟨t, value⟩)] } =
      plan.encodings.set place (t.encode value) := by
  have hplace := hcell.2 0 Nat.one_pos
  apply List.ext_getElem
  · simp
  · intro i hi _
    rw [List.getElem_set]
    simp only [encodings, List.getElem_mapIdx]
    split
    next heq =>
      subst heq
      obtain ⟨_, hpiece⟩ := List.getElem?_eq_some_iff.mp hplace
      simp only [Nat.add_zero] at hpiece
      simp [hpiece, Piece.encode, commitsTo, Datum.encode]
    next hne =>
      simp [commitsTo, hne]

end Plan

/-! ## Handles -/

theorem lookup_eq_some {handles : List Handle} {handle : Nat} {count : Option Nat} :
    lookup handles handle t count = some place ↔ handles[handle]? = some ⟨t, count, place⟩ := by
  rw [lookup, Option.bind_eq_some_iff]
  constructor
  · rintro ⟨⟨_, _, _⟩, hget, h⟩
    simp only [Option.ite_none_right_eq_some, Option.some.injEq] at h
    obtain ⟨⟨rfl, rfl⟩, rfl⟩ := h
    exact hget
  · intro hget
    exact ⟨_, hget, by simp⟩

/-- A handle of a plan, placed at the offset of its piece behind `front` bytes. -/
def Handle.placed (front : Nat) (pieces : List Piece) (handle : Handle) : Handle :=
  { handle with place := front + offset pieces handle.place }

/-! ## Sessions -/

variable {σ : Type} {holds : σ → Bytes → Prop} {front : Bytes} {plan : Plan} {s : Session σ}

/-- The sink holds the bytes of the plan behind `front`, and the handles lie at the offsets of their
pieces. -/
structure Follows (holds : σ → Bytes → Prop) (front : Bytes) (plan : Plan) (s : Session σ) :
    Prop where
  sound : plan.Sound
  holds : s.writer.Holds holds (front ++ plan.render)
  handles : s.handles = plan.handles.map (Handle.placed front.length plan.pieces)

theorem follows_start {sink : σ} (h : holds sink front) :
    Follows holds front {} (Session.start sink) where
  sound := Plan.sound_empty
  holds := ⟨rfl, by simpa [Plan.render, Plan.encodings, Session.start] using h⟩
  handles := rfl

/-- A handle for cells may be handed out. -/
theorem Follows.obtain (h : Follows holds front plan s) (count : Option Nat)
    (hcells : Cells plan.pieces place t (count.getD 1)) :
    Follows holds front { plan with handles := plan.handles ++ [⟨t, count, place⟩] }
      { s with handles := s.handles ++
          [⟨t, count, front.length + offset plan.pieces place⟩] } where
  sound :=
    { handles := by
        intro handle hmem
        rcases List.mem_append.mp hmem with hmem | hmem
        · exact h.sound.handles handle hmem
        · obtain rfl := List.mem_singleton.mp hmem
          exact hcells
      commits := h.sound.commits }
  holds := h.holds
  handles := by
    rw [h.handles, List.map_append, List.map_singleton]
    rfl

/-- A handle of the plan is a handle of the session, and its cells are there. -/
theorem Follows.lookup (h : Follows holds front plan s) {handle : Nat} {count : Option Nat}
    (hplace : lookup plan.handles handle t count = some place) :
    lookup s.handles handle t count = some (front.length + offset plan.pieces place) ∧
      Cells plan.pieces place t (count.getD 1) := by
  have hget := lookup_eq_some.mp hplace
  refine ⟨lookup_eq_some.mpr ?_, h.sound.handles _ (List.mem_of_getElem? hget)⟩
  rw [h.handles, List.getElem?_map, hget]
  rfl

theorem Session.correct_of_ok {act : Action (Writer σ) Unit} {w : Writer σ}
    (hact : act s.writer = .ok () w) : s.correct act = (.ok (), { s with writer := w }) := by
  rw [Session.correct, hact]

variable [Sink σ]

theorem Follows.position (hsink : Sink.Tracked holds fun _ _ => False)
    (h : Follows holds front plan s) :
    s.writer.position = front.length + offset plan.pieces plan.pieces.length := by
  rw [h.holds.position hsink.toUnflushed, List.length_append, h.sound.length_render]

/-- Bytes that encode more pieces may be appended. -/
theorem Follows.append (hsink : Sink.Tracked holds fun _ _ => False)
    (h : Follows holds front plan s) (more : List Piece) {data : Bytes}
    (hdata : (more.map (·.encode [])).flatten = data) :
    Follows holds front { plan with pieces := plan.pieces ++ more }
      { s with writer := s.writer.append data } where
  sound :=
    { handles := fun handle hmem => (h.sound.handles handle hmem).append
      commits := fun commit hmem => (h.sound.commits commit hmem).append }
  holds := by
    have hrender : Plan.render { plan with pieces := plan.pieces ++ more } =
        plan.render ++ data := by
      rw [Plan.render, h.sound.encodings_append, List.flatten_append, hdata, Plan.render]
    rw [hrender, ← List.append_assoc]
    rcases h.holds.append hsink.toUnflushed data with hnext | ⟨-, _, hfalse⟩
    · exact hnext
    · exact hfalse.elim
  handles := by
    rw [h.handles]
    apply List.map_congr_left
    intro handle hmem
    rw [Handle.placed, Handle.placed, offset_append (h.sound.handles handle hmem).1]

/-! ## Commits -/

theorem Follows.commit (hsink : Sink.Tracked holds fun _ _ => False)
    (h : Follows holds front plan s) (hcell : Cells plan.pieces place t 1) (value : t.Value) :
    ∃ w, Writer.commit (t := t) ⟨front.length + offset plan.pieces place⟩ value s.writer =
        .ok () w ∧
      Follows holds front { plan with commits := plan.commits ++ [(place, ⟨t, value⟩)] }
        { s with writer := w } := by
  have hroom : front.length + offset plan.pieces place + t.width ≤
      (front ++ plan.render).length := by
    have hend := hcell.offset_add (Nat.le_refl 1)
    have hle := offset_le plan.pieces (place + 1)
    rw [List.length_append, h.sound.length_render]
    omega
  obtain ⟨⟨⟩, w, hcommit, hholds⟩ := (Writer.commit_ends hsink.toUnflushed h.holds
    ⟨front.length + offset plan.pieces place⟩ value hroom).exists_ok fun _ _ ⟨_, h⟩ => h
  refine ⟨w, hcommit, ⟨h.sound.handles, ?_⟩, ?_, h.handles⟩
  · intro commit hmem
    rcases List.mem_append.mp hmem with hmem | hmem
    · exact h.sound.commits commit hmem
    · obtain rfl := List.mem_singleton.mp hmem
      exact hcell
  · obtain ⟨old, hold, hwidth⟩ := h.sound.exists_encoding hcell
    rw [Plan.render, ← h.sound.length_encodings_take, Bytes.overlay_flatten front hold (by
      rw [Scalar.length_encode, hwidth]), ← Plan.encodings_commit hcell] at hholds
    exact hholds

theorem Follows.commitFrom (hsink : Sink.Tracked holds fun _ _ => False)
    (h : Follows holds front plan s) (values : List t.Value)
    (hcells : Cells plan.pieces place t values.length) :
    ∃ w, Writer.commitFrom t (front.length + offset plan.pieces place) values s.writer =
        .ok () w ∧
      Follows holds front { plan with commits := plan.commits ++ Plan.commitsFrom t place values }
        { s with writer := w } := by
  induction values generalizing plan s place with
  | nil => exact ⟨s.writer, rfl, by simpa [Plan.commitsFrom] using h⟩
  | cons value rest ih =>
    obtain ⟨w, hcommit, hnext⟩ := h.commit hsink hcells.head value
    obtain ⟨w', hrest, hlast⟩ := ih hnext hcells.tail
    have hstep := hcells.offset_add (show 1 ≤ (value :: rest).length by simp)
    rw [hstep, Nat.one_mul, ← Nat.add_assoc] at hrest
    refine ⟨w', ?_, by simpa [Plan.commitsFrom] using hlast⟩
    simp only [Writer.commitFrom, bind, EStateM.bind, hcommit]
    exact hrest

/-! ## Calls -/

/-- Cells may be written as zeros, and a handle for them handed out. -/
theorem Follows.reserve (hsink : Sink.Tracked holds fun _ _ => False)
    (h : Follows holds front plan s) (t : Scalar) (count : Option Nat) {data : Bytes}
    (hdata : t.encodeList (List.replicate (count.getD 1) t.zero) = data) :
    Follows holds front
      { plan with
        pieces := plan.pieces ++ List.replicate (count.getD 1) (.cell t)
        handles := plan.handles ++ [⟨t, count, plan.pieces.length⟩] }
      ⟨s.writer.append data, s.handles ++ [⟨t, count, s.writer.position⟩]⟩ := by
  have hcells : ((List.replicate (count.getD 1) (Piece.cell t)).map (·.encode [])).flatten =
      data := by
    rw [← hdata, Scalar.encodeList, List.flatMap_def, List.map_replicate, List.map_replicate]
    rfl
  have hnext := (h.append hsink _ hcells).obtain count (cells_replicate plan.pieces t _)
  dsimp only at hnext
  rw [offset_append (Nat.le_refl _), ← h.position hsink] at hnext
  exact hnext

/-- A call that has a plan succeeds and follows it. -/
theorem Follows.call (hsink : Sink.Tracked holds fun _ _ => False)
    (h : Follows holds front plan s) {call : Call} {next : Plan}
    (hcall : plan.call call = some next) :
    ∃ t, s.call call = some (.ok (), t) ∧ Follows holds front next t := by
  cases call with
  | append data =>
    obtain rfl := Option.some.inj hcall
    exact ⟨_, rfl, h.append hsink [.fixed data] (by simp [Piece.encode])⟩
  | write t value =>
    obtain rfl := Option.some.inj hcall
    exact ⟨_, rfl, h.append hsink [.fixed (t.encode value)] (by simp [Piece.encode])⟩
  | writeList t values =>
    obtain rfl := Option.some.inj hcall
    exact ⟨_, rfl, h.append hsink [.fixed (t.encodeList values)] (by simp [Piece.encode])⟩
  | reserve t =>
    obtain rfl := Option.some.inj hcall
    exact ⟨_, rfl, h.reserve hsink t none (by simp [Scalar.encodeList])⟩
  | reserveArray t n =>
    obtain rfl := Option.some.inj hcall
    exact ⟨_, rfl, h.reserve hsink t (some n) rfl⟩
  | slot handle t n index =>
    obtain ⟨place, hplace, hnext⟩ := Option.bind_eq_some_iff.mp hcall
    obtain ⟨hlookup, hcells⟩ := h.lookup hplace
    simp only [Session.call, hlookup, SlotArray.slot?]
    by_cases hindex : index < n
    · simp only [hindex, if_true] at hnext ⊢
      obtain rfl := Option.some.inj hnext
      have hfollows := h.obtain none (hcells.get hindex)
      rw [hcells.offset_add (Nat.le_of_lt hindex), ← Nat.add_assoc] at hfollows
      exact ⟨_, rfl, hfollows⟩
    · simp only [hindex, if_false] at hnext ⊢
      obtain rfl := Option.some.inj hnext
      exact ⟨s, rfl, h⟩
  | commit handle t value =>
    obtain ⟨place, hplace, hnext⟩ := Option.bind_eq_some_iff.mp hcall
    obtain rfl := Option.some.inj hnext
    obtain ⟨hlookup, hcells⟩ := h.lookup hplace
    obtain ⟨w, hcommit, hfollows⟩ := h.commit hsink hcells value
    refine ⟨_, ?_, hfollows⟩
    rw [Session.call, hlookup, ← Session.correct_of_ok hcommit]
    rfl
  | commitArray handle t n values =>
    obtain ⟨place, hplace, hnext⟩ := Option.bind_eq_some_iff.mp hcall
    obtain rfl := Option.some.inj hnext
    obtain ⟨hlookup, hcells⟩ := h.lookup hplace
    obtain ⟨w, hcommit, hfollows⟩ := h.commitFrom hsink values.toList (by simpa using hcells)
    refine ⟨_, ?_, hfollows⟩
    rw [Session.call, hlookup, ← Session.correct_of_ok hcommit]
    rfl

/-! ## Scripts -/

theorem Follows.run (hsink : Sink.Tracked holds fun _ _ => False)
    (h : Follows holds front plan s) {calls : List Call} {last : Plan}
    (hrun : plan.run calls = some last) :
    ∃ t, s.run calls = some (List.replicate calls.length (.ok ()), t) ∧
      Follows holds front last t := by
  induction calls generalizing plan s with
  | nil =>
    obtain rfl := Option.some.inj hrun
    exact ⟨s, rfl, h⟩
  | cons call rest ih =>
    obtain ⟨next, hcall, hrest⟩ := Option.bind_eq_some_iff.mp hrun
    obtain ⟨middle, hfirst, hmiddle⟩ := h.call hsink hcall
    obtain ⟨t, hlater, ht⟩ := ih hmiddle hrest
    refine ⟨t, ?_, ht⟩
    simp only [Session.run, hfirst, hlater, bind, Option.bind, pure, List.length_cons,
      List.replicate_succ]

namespace Plan

variable {next : Plan} {call : Call} {calls : List Call}

@[simp] theorem run_append (plan : Plan) (before after : List Call) :
    plan.run (before ++ after) = (plan.run before).bind (·.run after) := by
  induction before generalizing plan with
  | nil => rfl
  | cons call rest ih =>
    simp only [List.cons_append, run, bind, Option.bind]
    cases plan.call call with
    | none => rfl
    | some next => exact ih next

/-- Commits add no pieces and no handles. -/
theorem call_of_isCommit (hcommit : call.isCommit = true) (hcall : plan.call call = some next) :
    next.pieces = plan.pieces ∧ next.handles = plan.handles := by
  cases call with
  | commit handle t value | commitArray handle t n values =>
    obtain ⟨place, -, hnext⟩ := Option.bind_eq_some_iff.mp hcall
    obtain rfl := Option.some.inj hnext
    exact ⟨rfl, rfl⟩
  | _ => simp [Call.isCommit] at hcommit

/-- What the other calls add does not depend on what has been committed. -/
theorem call_of_not_isCommit (hcommit : call.isCommit = false)
    (hcall : plan.call call = some next) (commits : List (Nat × Datum)) :
    Plan.call { plan with commits } call = some { next with commits } := by
  cases call with
  | commit | commitArray => simp [Call.isCommit] at hcommit
  | slot handle t n index =>
    obtain ⟨place, hplace, hnext⟩ := Option.bind_eq_some_iff.mp hcall
    simp only [Plan.call, hplace, bind, Option.bind]
    split at hnext <;> obtain rfl := Option.some.inj hnext <;> simp [*]
  | _ =>
    obtain rfl := Option.some.inj hcall
    rfl

/-- Without its commits, a script has the same pieces and handles. -/
theorem run_filter (hrun : plan.run calls = some next) (commits : List (Nat × Datum)) :
    Plan.run { plan with commits } (calls.filter (!·.isCommit)) = some { next with commits } := by
  induction calls generalizing plan with
  | nil =>
    obtain rfl := Option.some.inj hrun
    rfl
  | cons call rest ih =>
    obtain ⟨middle, hcall, hrest⟩ := Option.bind_eq_some_iff.mp hrun
    cases hcommit : call.isCommit with
    | true =>
      obtain ⟨hpieces, hhandles⟩ := call_of_isCommit hcommit hcall
      rw [List.filter_cons_of_neg (by simp [hcommit]), ← hpieces, ← hhandles]
      exact ih hrest
    | false =>
      rw [List.filter_cons_of_pos (by simp [hcommit]), run,
        call_of_not_isCommit hcommit hcall commits]
      exact ih hrest

/-- Scripts with the same other calls have the same pieces. -/
theorem pieces_eq_of_run {calls' : List Call} {plan' : Plan} (hrun : Plan.run {} calls = some plan)
    (hrun' : Plan.run {} calls' = some plan')
    (hothers : calls'.filter (!·.isCommit) = calls.filter (!·.isCommit)) :
    plan'.pieces = plan.pieces := by
  have hfilter := run_filter hrun []
  have hfilter' := run_filter hrun' []
  rw [hothers, hfilter] at hfilter'
  exact (congrArg Plan.pieces (Option.some.inj hfilter')).symm

theorem render_congr {plan plan' : Plan} (hpieces : plan'.pieces = plan.pieces)
    (hcommits : ∀ place, plan'.commitsTo place = plan.commitsTo place) :
    plan'.render = plan.render := by
  simp only [render, encodings, hpieces, hcommits]

end Plan

/-- A commit leaves the position where it was. -/
theorem Follows.call_of_isCommit (hsink : Sink.Tracked holds fun _ _ => False)
    (h : Follows holds front plan s) {call : Call} {next : Plan}
    (hcall : plan.call call = some next) (hcommit : call.isCommit = true) :
    ∃ t, s.call call = some (.ok (), t) ∧ t.writer.position = s.writer.position := by
  obtain ⟨t, ht, hnext⟩ := h.call hsink hcall
  obtain ⟨hpieces, -⟩ := Plan.call_of_isCommit hcommit hcall
  exact ⟨t, ht, by rw [hnext.position hsink, h.position hsink, hpieces]⟩

/-- Of every script whose corrections use handles obtained before, all calls succeed, and a buffer
then contains what it did at first and the bytes of the plan: every value that was reserved as it
was committed last, or zero. No commit moves the position. Another script that makes the same other
calls, and for every value the same commits in the same order, makes the same bytes. -/
theorem run_eq_render (front : Bytes) {calls : List Call} (hplan : Plan.run {} calls = some plan) :
    ∃ s : Session Buffer,
      (Session.start ⟨front⟩).run calls = some (List.replicate calls.length (.ok ()), s) ∧
        s.writer.isOk ∧ s.writer.sink.content = front ++ plan.render ∧
        (∀ before call after, calls = before ++ call :: after → call.isCommit →
          ∃ outcomes earlier later,
            (Session.start (⟨front⟩ : Buffer)).run before = some (outcomes, earlier) ∧
              earlier.call call = some (.ok (), later) ∧
              later.writer.position = earlier.writer.position) ∧
        ∀ calls' plan', Plan.run {} calls' = some plan' →
          calls'.filter (!·.isCommit) = calls.filter (!·.isCommit) →
          (∀ place, plan'.commitsTo place = plan.commitsTo place) →
          ∃ outcomes, ∃ s' : Session Buffer,
            (Session.start ⟨front⟩).run calls' = some (outcomes, s') ∧
              s'.writer.sink.content = s.writer.sink.content := by
  have hstart := follows_start (show Buffer.Holds ⟨front⟩ front from rfl)
  obtain ⟨s, hrun, hfollows⟩ := hstart.run Buffer.tracked hplan
  refine ⟨s, hrun, by simp [Writer.isOk, hfollows.holds.1], hfollows.holds.2, ?_, ?_⟩
  · rintro before call after rfl hcommit
    rw [Plan.run_append] at hplan
    obtain ⟨middle, hbefore, hafter⟩ := Option.bind_eq_some_iff.mp hplan
    obtain ⟨next, hcall, -⟩ := Option.bind_eq_some_iff.mp hafter
    obtain ⟨earlier, hearlier, hmiddle⟩ := hstart.run Buffer.tracked hbefore
    obtain ⟨later, hlater, hposition⟩ := hmiddle.call_of_isCommit Buffer.tracked hcall hcommit
    exact ⟨_, earlier, later, hearlier, hlater, hposition⟩
  · intro calls' plan' hplan' hothers hcommits
    obtain ⟨s', hrun', hfollows'⟩ := hstart.run Buffer.tracked hplan'
    have hpieces := Plan.pieces_eq_of_run hplan hplan' hothers
    have hcontent : s'.writer.sink.content = front ++ plan'.render := hfollows'.holds.2
    have hcontent' : s.writer.sink.content = front ++ plan.render := hfollows.holds.2
    refine ⟨_, s', hrun', ?_⟩
    rw [hcontent, hcontent', Plan.render_congr hpieces hcommits]

/-- A value that is committed twice, and one of an array by itself and then with all of it. -/
theorem run_eq_render_overwritten :
    let calls : List Call := [.reserve .u16, .write .u8 7, .reserveArray .u32 2,
      .slot 1 .u32 2 1, .commit 2 .u32 9, .commit 0 .u16 513, .append [8],
      .commitArray 1 .u32 2 #v[1, 2], .commit 0 .u16 3, .reserve .bool]
    ∃ s : Session Buffer,
      (Session.start ⟨[42]⟩).run calls = some (List.replicate 10 (.ok ()), s) ∧
        s.writer.sink.content = [42, 3, 0, 7, 1, 0, 0, 0, 2, 0, 0, 0, 8, 0] := by
  intro calls
  have hrender : (Plan.run {} calls).map Plan.render =
      some [3, 0, 7, 1, 0, 0, 0, 2, 0, 0, 0, 8, 0] := by decide +kernel
  obtain ⟨plan, hplan, hbytes⟩ := Option.map_eq_some_iff.mp hrender
  obtain ⟨s, hrun, -, hcontent, -⟩ := run_eq_render [42] hplan
  rw [hbytes] at hcontent
  exact ⟨s, hrun, hcontent⟩

end Script

end Octet
