import Octet.Proofs.Reader.Truncation
import Octet.Proofs.Writer.Exchange

/-!
# Typed items

Values, several values in a row, and raw bytes, as they are written one after another without marks
between them. Whoever knows the forms reads them back, and writes bytes that were read by their
forms as they were, except that a flag is written in one way only.

## Main definitions

* `Item`, `Form`: what is written, and what has to be known to read it.
* `Item.encodeAll`, `Form.decodeAll`: items as bytes, and back.
* `Form.canonicalAll`: bytes as they are written again once they were read.
* `Item.writeAll`, `Item.readAll`: items through a writer and through a reader.

## Main statements

* `Form.decodeAll_encodeAll`, `Form.encodeAll_decodeAll`: the two codes are inverse, up to the bytes
  of flags.
* `Item.readAll_writeAll`: items through a buffer come back, and so do bytes through items.
-/

namespace Octet

/-- What has to be known of an item to read it. -/
inductive Form
  | value (t : Scalar)
  | values (t : Scalar) (count : Nat)
  | bytes (count : Nat)
  deriving DecidableEq, Repr

/-- What a writer is given in one call, and a reader brings in one. -/
inductive Item
  | value (t : Scalar) (value : t.Value)
  | values (t : Scalar) (values : List t.Value)
  | bytes (data : Bytes)

namespace Form

def width : Form → Nat
  | .value t => t.width
  | .values t count => count * t.width
  | .bytes count => count

/-- The item that bytes of the width of a form spell. -/
def decode : Form → Bytes → Item
  | .value t, data => .value t (t.decode data)
  | .values t count, data => .values t (t.decodeList count data)
  | .bytes _, data => .bytes data

/-- Bytes of the width of a form as they are written again. -/
def canonical : Form → Bytes → Bytes
  | .value t, data | .values t _, data => t.canonical data
  | .bytes _, data => data

/-! ## Rows of forms -/

/-- The count of bytes of items of these forms. -/
def widthAll (forms : List Form) : Nat := (forms.map width).sum

/-- The items that bytes spell, one after another. -/
def decodeAll : List Form → Bytes → List Item
  | [], _ => []
  | form :: rest, data =>
    form.decode (data.take form.width) :: decodeAll rest (data.drop form.width)

/-- Bytes as they are written again, item by item. -/
def canonicalAll : List Form → Bytes → Bytes
  | [], _ => []
  | form :: rest, data =>
    form.canonical (data.take form.width) ++ canonicalAll rest (data.drop form.width)

@[simp, grind =] theorem widthAll_cons (form : Form) (forms : List Form) :
    widthAll (form :: forms) = form.width + widthAll forms := by
  simp [widthAll]

end Form

namespace Item

def form : Item → Form
  | .value t _ => .value t
  | .values t xs => .values t xs.length
  | .bytes data => .bytes data.length

def encode : Item → Bytes
  | .value t x => t.encode x
  | .values t xs => t.encodeList xs
  | .bytes data => data

/-- Items one after another, without anything between them. -/
def encodeAll (items : List Item) : Bytes := items.flatMap encode

@[simp, grind =] theorem length_encode (item : Item) : item.encode.length = item.form.width := by
  cases item with
  | value t x => exact t.length_encode x
  | values t xs => exact t.length_encodeList xs
  | bytes data => rfl

@[simp, grind =] theorem encodeAll_cons (item : Item) (items : List Item) :
    encodeAll (item :: items) = item.encode ++ encodeAll items :=
  List.flatMap_cons

@[simp, grind =] theorem length_encodeAll (items : List Item) :
    (encodeAll items).length = Form.widthAll (items.map form) := by
  induction items with
  | nil => rfl
  | cons item rest ih =>
    simp [ih]

end Item

/-! ## The two codes -/

namespace Form

variable {form : Form} {forms : List Form} {data : Bytes}

@[simp, grind =] theorem decode_encode (item : Item) : item.form.decode item.encode = item := by
  cases item with
  | value t x => exact congrArg (Item.value t) (t.decode_encode x)
  | values t xs => exact congrArg (Item.values t) (t.decodeList_encodeList xs)
  | bytes data => rfl

theorem encode_decode (h : data.length = form.width) :
    (form.decode data).encode = form.canonical data := by
  cases form with
  | value t => exact t.encode_decode h
  | values t count => exact t.encodeList_decodeList h
  | bytes count => rfl

theorem form_decode (h : data.length = form.width) : (form.decode data).form = form := by
  cases form with
  | value t => rfl
  | values t count => exact congrArg (Form.values t) (t.length_decodeList count data)
  | bytes count => exact congrArg Form.bytes h

@[simp, grind =] theorem decodeAll_encodeAll (items : List Item) :
    decodeAll (items.map Item.form) (Item.encodeAll items) = items := by
  induction items with
  | nil => rfl
  | cons item rest ih =>
    have hlen := item.length_encode
    simp [decodeAll, List.take_left' hlen, List.drop_left' hlen, ih]

/-- Bytes that items of these forms take are split into those of the first and those of the rest. -/
theorem length_split (h : data.length = widthAll (form :: forms)) :
    (data.take form.width).length = form.width ∧
      (data.drop form.width).length = widthAll forms := by
  rw [widthAll_cons] at h
  grind

theorem encodeAll_decodeAll (h : data.length = widthAll forms) :
    Item.encodeAll (decodeAll forms data) = canonicalAll forms data := by
  induction forms generalizing data with
  | nil => rfl
  | cons form rest ih =>
    obtain ⟨hfirst, hrest⟩ := length_split h
    simp [decodeAll, canonicalAll, encode_decode hfirst, ih hrest]

theorem map_form_decodeAll (h : data.length = widthAll forms) :
    (decodeAll forms data).map Item.form = forms := by
  induction forms generalizing data with
  | nil => rfl
  | cons form rest ih =>
    obtain ⟨hfirst, hrest⟩ := length_split h
    rw [decodeAll, List.map_cons, form_decode hfirst, ih hrest]

end Form

/-! ## Through a writer and a reader -/

namespace Item

section

variable {σ : Type}

/-- Writes an item in one call. -/
def write [Sink σ] : Item → Writer σ → Writer σ
  | .value t x, w => w.write t x
  | .values t xs, w => w.writeList t xs
  | .bytes data, w => w.append data

/-- Writes items one after another. -/
def writeAll [Sink σ] (items : List Item) (w : Writer σ) : Writer σ :=
  items.foldl (fun w item => item.write w) w

/-- Reads an item in one call, in place of another one of its form. -/
def read [Source σ] : Item → Reader σ → Item × Reader σ
  | .value t current, r =>
    let (x, r) := r.read t current
    (.value t x, r)
  | .values t current, r =>
    let (xs, r) := r.readArray t (n := current.length) ⟨current.toArray, rfl⟩
    (.values t xs.toList, r)
  | .bytes buffer, r =>
    let (data, r) := r.readInto buffer
    (.bytes data, r)

/-- Reads items one after another, each in place of another one of its form. -/
def readAll [Source σ] : List Item → Reader σ → List Item × Reader σ
  | [], r => ([], r)
  | output :: rest, r =>
    let (item, r) := output.read r
    let (items, r) := readAll rest r
    (item :: items, r)

theorem write_eq_append [Sink σ] (item : Item) (w : Writer σ) :
    item.write w = w.append item.encode := by
  cases item <;> rfl

theorem holds_writeAll [Sink σ] {holds : σ → Bytes → Prop} {room : Nat} {w : Writer σ}
    {content : Bytes} (hsink : Sink.Exact room holds) (h : w.Holds holds content)
    (items : List Item) (hle : (content ++ encodeAll items).length ≤ room) :
    (writeAll items w).Holds holds (content ++ encodeAll items) := by
  induction items generalizing w content with
  | nil =>
    rw [encodeAll, List.flatMap_nil, List.append_nil]
    exact h
  | cons item rest ih =>
    rw [encodeAll_cons, ← List.append_assoc] at hle ⊢
    have hfirst : (content ++ item.encode).length ≤ room := by grind
    rw [writeAll, List.foldl_cons, write_eq_append]
    exact ih (Building.holds_append hsink h hfirst) hle

variable [Source σ] {data : Bytes} {stands : σ → Nat → Prop} {r : Reader σ} {p : Nat}

theorem stands_read (hsource : Source.Walks data stands) (h : r.Stands stands p) (output : Item)
    (hle : p + output.form.width ≤ data.length) :
    (output.read r).1 = output.form.decode ((data.drop p).take output.form.width) ∧
      (output.read r).2.Stands stands (p + output.form.width) := by
  cases output with
  | value t current =>
    obtain ⟨hvalue, hnext⟩ := h.read hsource t current hle
    exact ⟨congrArg (Item.value t) hvalue, hnext⟩
  | values t current =>
    obtain ⟨hvalues, hnext⟩ :=
      h.readArray hsource t (n := current.length) ⟨current.toArray, rfl⟩ hle
    exact ⟨congrArg (Item.values t) hvalues, hnext⟩
  | bytes buffer =>
    obtain ⟨-, -, hnext⟩ := h.fill hsource buffer.length hle
    exact ⟨congrArg Item.bytes (h.readInto_of_le hsource hle), hnext⟩

theorem stands_readAll (hsource : Source.Walks data stands) (h : r.Stands stands p)
    (outputs : List Item) (hle : p + Form.widthAll (outputs.map form) ≤ data.length) :
    (readAll outputs r).1 = Form.decodeAll (outputs.map form) (data.drop p) ∧
      (readAll outputs r).2.Stands stands (p + Form.widthAll (outputs.map form)) := by
  induction outputs generalizing r p with
  | nil => exact ⟨rfl, h⟩
  | cons output rest ih =>
    rw [List.map_cons, Form.widthAll_cons] at hle ⊢
    obtain ⟨hitem, hnext⟩ := stands_read hsource h output (by omega)
    obtain ⟨hitems, hlast⟩ := ih hnext (by omega)
    rw [Nat.add_assoc] at hlast
    refine ⟨?_, hlast⟩
    rw [readAll, Form.decodeAll, ← hitem, List.drop_drop, ← hitems]

end

/-! ## Through a buffer and a cursor -/

theorem writeAll_buffer (front : Bytes) (items : List Item) :
    writeAll items (⟨⟨front⟩, false⟩ : Writer Buffer) = ⟨⟨front ++ encodeAll items⟩, false⟩ := by
  have hstart : (⟨⟨front⟩, false⟩ : Writer Buffer).Holds Buffer.Holds front := ⟨rfl, rfl⟩
  have hlast := holds_writeAll Buffer.exact hstart items (Nat.le_refl _)
  generalize writeAll items (⟨⟨front⟩, false⟩ : Writer Buffer) = last at hlast
  obtain ⟨⟨content⟩, failed⟩ := last
  obtain ⟨rfl, hcontent⟩ := hlast
  obtain rfl : content = _ := hcontent
  rfl

theorem readAll_cursor {data : Bytes} {outputs : List Item}
    (h : data.length = Form.widthAll (outputs.map form)) :
    ∃ last, readAll outputs (⟨{ data }, false⟩ : Reader Cursor) =
        (Form.decodeAll (outputs.map form) data, last) ∧
      Reader.finish last = .ok () last ∧ last.position = data.length := by
  have hstart : (⟨{ data }, false⟩ : Reader Cursor).Stands (Cursor.Stands data) 0 := ⟨rfl, rfl, rfl⟩
  obtain ⟨hitems, hlast, hend⟩ :=
    stands_readAll (Cursor.walks data) hstart outputs (by omega)
  refine ⟨_, Prod.ext hitems rfl, by simp [Reader.finish, hlast], ?_⟩
  rw [Nat.zero_add, ← h] at hend
  exact hend.2

/-- Items written to a buffer take as many bytes as their forms say. Whoever reads these bytes by
the same forms, into whatever there was, finds the items, bit for bit, and then the end. The other
way round, bytes of the right count that are read by any forms make items of these forms, which are
written as the bytes were, except that a flag of any byte but zero is written as one. -/
theorem readAll_writeAll :
    (∀ (front : Bytes) (items outputs : List Item), outputs.map form = items.map form →
      ∃ written last,
        writeAll items (⟨⟨front⟩, false⟩ : Writer Buffer) = ⟨⟨front ++ written⟩, false⟩ ∧
          written.length = Form.widthAll (items.map form) ∧
          readAll outputs (⟨{ data := written }, false⟩ : Reader Cursor) = (items, last) ∧
          Reader.finish last = .ok () last ∧ last.position = written.length) ∧
    ∀ (front data : Bytes) (outputs : List Item),
      data.length = Form.widthAll (outputs.map form) →
      ∃ items last,
        readAll outputs (⟨{ data }, false⟩ : Reader Cursor) = (items, last) ∧
          Reader.finish last = .ok () last ∧ last.position = data.length ∧
          items.map form = outputs.map form ∧
          writeAll items (⟨⟨front⟩, false⟩ : Writer Buffer) =
            ⟨⟨front ++ Form.canonicalAll (outputs.map form) data⟩, false⟩ := by
  constructor
  · intro front items outputs hforms
    have hlen := length_encodeAll items
    obtain ⟨last, hread, hfinish, hend⟩ := readAll_cursor (hforms ▸ hlen)
    rw [hforms, Form.decodeAll_encodeAll] at hread
    exact ⟨encodeAll items, last, writeAll_buffer front items, hlen, hread, hfinish, hend⟩
  · intro front data outputs hlen
    obtain ⟨last, hread, hfinish, hend⟩ := readAll_cursor hlen
    have hwrite := writeAll_buffer front (Form.decodeAll (outputs.map form) data)
    rw [Form.encodeAll_decodeAll hlen] at hwrite
    exact ⟨_, last, hread, hfinish, hend, Form.map_form_decodeAll hlen, hwrite⟩

/-- A number that is none keeps its payload, and a flag of seven is written as one. -/
theorem readAll_writeAll_mixed :
    let items : List Item :=
      [.value .f32 ⟨0x7fc00001⟩, .values .i16 [-2, 300], .value .bool true, .bytes [9]]
    let outputs : List Item :=
      [.value .f32 ⟨0⟩, .values .i16 [0, 0], .value .bool false, .bytes [5]]
    (∃ written last,
      writeAll items (⟨⟨[8]⟩, false⟩ : Writer Buffer) = ⟨⟨[8] ++ written⟩, false⟩ ∧
        written.length = 10 ∧
        readAll outputs (⟨{ data := written }, false⟩ : Reader Cursor) = (items, last) ∧
        Reader.finish last = .ok () last) ∧
    ∃ found last,
      readAll outputs
          (⟨{ data := [1, 0, 192, 127, 254, 255, 44, 1, 7, 9] }, false⟩ : Reader Cursor) =
        (found, last) ∧
      writeAll found (⟨⟨[8]⟩, false⟩ : Writer Buffer) =
        ⟨⟨[8, 1, 0, 192, 127, 254, 255, 44, 1, 1, 9]⟩, false⟩ := by
  intro items outputs
  obtain ⟨hforth, hback⟩ := readAll_writeAll
  constructor
  · obtain ⟨written, last, hwrite, hlen, hread, hfinish, -⟩ := hforth [8] items outputs rfl
    exact ⟨written, last, hwrite, hlen, hread, hfinish⟩
  · obtain ⟨found, last, hread, -, -, -, hwrite⟩ :=
      hback [8] [1, 0, 192, 127, 254, 255, 44, 1, 7, 9] outputs rfl
    exact ⟨found, last, hread, hwrite⟩

end Item

end Octet
