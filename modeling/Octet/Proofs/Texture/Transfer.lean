import Octet.Proofs.Connection.Intake
import Octet.Proofs.Connection.Session
import Octet.Proofs.Sink.Outgoing
import Octet.Proofs.Texture.Image

/-!
# Images over a connection

Images are saved to messages of one connection, and read off another one to which the bytes of these
messages are delivered, cut anywhere.

## Main definitions

* `Connection.sendImages`: each image is saved to a message of its own.
* `Image.intake`: the client that reads images.

## Main statements

* `Connection.Sending.sendImages`: just the images that fit are sent, each as one message.
* `Image.frames`: an image is found as soon as its file has arrived, and not before.
* `Image.serve_of_part`, `Image.serve_eq_found`: so are all images, however their files are cut.
* `Connection.serve_sendImages`: the images that were sent are found.
-/

namespace Octet

open Texture (Header Image)

variable {τ υ : Type}

namespace Connection

/-! ## Sending -/

section

variable [Transport τ]

/-- Saves an image to a message. Whatever comes of it, the message is ended. -/
def sendImage (image : Image) (c : Connection τ) : Except Error Header × Connection τ :=
  match Texture.save image.payloads (image.header, c.outgoing) with
  | .ok _ (header, message) => (.ok header, message.close)
  | .error e (_, message) => (.error e, message.close)

/-- Saves each image to a message of its own. -/
def sendImages : List Image → Connection τ → List (Except Error Header) × Connection τ
  | [], c => ([], c)
  | image :: rest, c =>
    let (outcome, next) := c.sendImage image
    let (outcomes, last) := next.sendImages rest
    (outcome :: outcomes, last)

/-- Between messages, nothing is staged. These sends were made, and the transport will take the next
one. -/
structure Sending (limit : Nat) (sends : List Send) (c : Connection (Recorded τ)) : Prop where
  staged : c.staged = []
  limit : c.limit = limit
  sends : c.sends = sends
  willing : Transport.Willing c.transport.inner

variable {limit : Nat} {sends : List Send} {c : Connection (Recorded τ)} {image : Image}
  {images : List Image}

theorem sending_close {message : Outgoing (Recorded τ)} (hlimit : message.connection.limit = limit)
    (hsends : message.connection.sends = sends)
    (hwilling : Transport.Willing message.connection.transport.inner) :
    Sending limit sends message.close where
  staged := message.close_staged
  limit := message.close_limit.trans hlimit
  sends := message.close_sends.trans hsends
  willing := message.close_transport ▸ hwilling

/-- An image that fits is handed to the transport as one payload. Of any other nothing is. -/
theorem Sending.save_ends (h : Sending limit sends c) (hlimit : image.file.length ≤ limit) :
    (Texture.save image.payloads).Ends (image.header, c.outgoing)
      (fun _ next => image.Fits ∧ next.1 = image.described ∧
        Sending limit (sends ++ [⟨image.file, true⟩]) next.2.close)
      (fun _ next => ¬ image.Fits ∧ Sending limit sends next.2.close) := by
  have hlen := image.length_file
  have hholds : Outgoing.Holds { c with staged := [] } c.outgoing [] := by
    rw [Outgoing.Holds, outgoing, h.staged]
  apply (Texture.save_ends (Outgoing.tracked _) hholds image.header image.payloads).mono
  · rintro _ ⟨_, message⟩ ⟨hfits, hheader, full, hfull, hflush⟩
    obtain rfl : full = ⟨{ c with staged := [] }, image.file⟩ := hfull
    obtain ⟨inner, hsend, hwilling⟩ := h.willing.send image.file
    have hne : image.file ≠ [] := by
      intro hnil
      rw [hnil, List.length_nil, Texture.headerSize] at hlen
      omega
    simp only [Outgoing.flush_eq, hne, if_false, Transport.send, hsend] at hflush
    cases hflush
    exact ⟨hfits, hheader, sending_close h.limit (congrArg (· ++ _) h.sends) hwilling⟩
  · rintro e ⟨_, message⟩ ⟨content, hpart, htorn | ⟨rfl, hfits⟩⟩
    · -- Only the limit can make a call fail, and a part of the file does not pass it.
      have hlt : c.limit < content.length := htorn.lt_length h.willing.recorded
      have hle := hpart.length_le
      rw [List.length_nil] at hle
      have := h.limit
      omega
    · exact ⟨hfits, sending_close h.limit h.sends h.willing⟩

theorem Sending.sendImage (h : Sending limit sends c) (hlimit : image.file.length ≤ limit) :
    (c.sendImage image).1.toOption = (if image.Fits then some image.described else none) ∧
      Sending limit (sends ++ if image.Fits then [⟨image.file, true⟩] else [])
        (c.sendImage image).2 := by
  have hends := h.save_ends hlimit
  unfold Connection.sendImage
  cases hsave : Texture.save image.payloads (image.header, c.outgoing) with
  | ok _ next =>
    obtain ⟨hfits, hheader, hnext⟩ := hends.of_ok hsave
    simp only [hfits, if_true]
    exact ⟨congrArg some hheader, hnext⟩
  | error e next =>
    obtain ⟨hfits, hnext⟩ := hends.of_error hsave
    simp only [hfits, if_false, List.append_nil]
    exact ⟨rfl, hnext⟩

/-- Just the images that fit are sent, in order, each as one payload. -/
theorem Sending.sendImages (h : Sending limit sends c)
    (hlimit : ∀ image ∈ images, image.file.length ≤ limit) :
    (c.sendImages images).1.map Except.toOption =
        images.map (fun image => if image.Fits then some image.described else none) ∧
      Sending limit (sends ++ (images.filter (·.Fits)).map fun image => ⟨image.file, true⟩)
        (c.sendImages images).2 := by
  induction images generalizing c sends with
  | nil =>
    refine ⟨rfl, ?_⟩
    rw [List.filter_nil, List.map_nil, List.append_nil]
    exact h
  | cons image rest ih =>
    obtain ⟨himage, hrest⟩ := List.forall_mem_cons.mp hlimit
    obtain ⟨houtcome, hnext⟩ := h.sendImage himage
    obtain ⟨houtcomes, hlast⟩ := ih hnext hrest
    refine ⟨congrArg₂ List.cons houtcome houtcomes, ?_⟩
    have hsends : ((image :: rest).filter (·.Fits)).map (fun image => (⟨image.file, true⟩ : Send)) =
        (if image.Fits then [⟨image.file, true⟩] else []) ++
          (rest.filter (·.Fits)).map fun image => ⟨image.file, true⟩ := by
      by_cases hfits : image.Fits <;> simp [hfits]
    rw [hsends, ← List.append_assoc]
    exact hlast

end

end Connection

/-! ## Receiving -/

namespace Texture.Image

variable {image : Image} {c : Connection τ}

/-- The client that reads images. -/
def intake : Intake τ Image := .ofAction Image.read fun c =>
  (read_ends_inside (Incoming.walks c) (Incoming.stands_reader c)).mono
    (fun _ _ ⟨count, hpos, hstands⟩ => ⟨count, hpos, hstands.2⟩) fun _ _ _ => trivial

theorem frames (hversion : image.header.version = Version.v1_0.raw) (hfits : image.Fits) :
    (intake : Intake τ Image).Frames image.found image.file where
  whole {c rest} hc := by
    have hpart : c.received <+: image.file ++ rest := ⟨[], by simp [hc]⟩
    apply Intake.attempt_ofAction_of_ok
    apply (read_ends (Incoming.walks c) hversion hfits hpart (Incoming.stands_reader c)).mono
    · rintro _ next ⟨hfound, hnext⟩
      exact ⟨hfound, hnext.2⟩
    · rintro _ next ⟨hlt, -⟩
      grind
  part {c missing} hc hne := by
    have hlen := congrArg List.length hc
    have hpos := List.length_pos_iff.mpr hne
    rw [List.length_append] at hlen
    have hpart : c.received <+: image.file ++ [] := ⟨missing, by simp [hc]⟩
    apply Intake.attempt_ofAction_of_error
    apply (read_ends (Incoming.walks c) hversion hfits hpart (Incoming.stands_reader c)).mono
    · rintro _ next ⟨-, hnext⟩
      have hle := (Incoming.walks c).le hnext.2
      omega
    · exact fun _ _ h => h.2

theorem attempt_of_nil (hc : c.received = []) : intake.attempt c = (none, c) := by
  apply Intake.attempt_ofAction_of_error
  apply (read_ends_inside (Incoming.walks c) (Incoming.stands_reader c)).mono
  · rintro _ next ⟨count, hpos, hnext⟩
    have hle := (Incoming.walks c).le hnext.2
    grind
  · exact fun _ _ h => h

theorem lacks : (intake : Intake τ Image).Lacks [] := fun hc =>
  attempt_of_nil (List.prefix_nil.mp hc)

variable {images : List Image} {fragments : List Bytes} {future : Bytes}

/-- At any moment the images found are the first ones, just those whose files have arrived whole. -/
theorem serve_of_part (hversion : ∀ image ∈ images, image.header.version = Version.v1_0.raw)
    (hfits : ∀ image ∈ images, image.Fits) (hc : c.received = [])
    (h : fragments.flatten ++ future = images.flatMap file) :
    ∃ arrived rest next, images = arrived ++ rest ∧
      intake.serve fragments c = (arrived.map found, next) ∧
      fragments.flatten = arrived.flatMap file ++ next.received ∧
      ∀ image ∈ rest.head?, next.received.length < image.file.length := by
  let framed := images.map fun image => (image.found, image.file)
  have hframes : ∀ m ∈ framed, (intake : Intake τ Image).Frames m.1 m.2 := by
    intro m hm
    obtain ⟨image, himage, rfl⟩ := List.mem_map.mp hm
    exact frames (hversion image himage) (hfits image himage)
  have hstream : c.received ++ fragments.flatten ++ future = framed.flatMap Prod.snd ++ [] := by
    rw [hc, List.nil_append, h, List.append_nil, List.flatMap_map]
  obtain ⟨_, _, hsplit, hfound, -, hstate⟩ :=
    Intake.serve_frames hframes lacks (attempt_of_nil hc) hstream
  obtain ⟨arrived, rest, himages, rfl, rfl⟩ := List.map_eq_append_iff.mp hsplit
  rw [List.map_map] at hfound
  refine ⟨arrived, rest, _, himages, Prod.ext hfound rfl, ?_, ?_⟩
  · have harrived := hstate.arrived
    rwa [hc, List.nil_append, List.flatMap_map] at harrived
  · intro image himage
    obtain ⟨rest, rfl⟩ := List.head?_eq_some_iff.mp himage
    refine hstate.length_lt (hframes (image.found, image.file) ?_)
    rw [show framed = _ from hsplit]
    exact List.mem_append_right _ List.mem_cons_self

/-- However files are cut, all images are found in them and nothing is left. -/
theorem serve_eq_found (hversion : ∀ image ∈ images, image.header.version = Version.v1_0.raw)
    (hfits : ∀ image ∈ images, image.Fits) (hc : c.received = [])
    (h : fragments.flatten = images.flatMap file) :
    ∃ last, intake.serve fragments c = (images.map found, last) ∧ last.received = [] := by
  obtain ⟨arrived, rest, last, rfl, hserve, harrived, hwaits⟩ :=
    serve_of_part hversion hfits hc (show fragments.flatten ++ [] = _ by simp [h])
  rw [h, List.flatMap_append, List.append_cancel_left_eq] at harrived
  cases rest with
  | nil => exact ⟨last, by simp [hserve], harrived.symm⟩
  | cons image rest =>
    have hlt := hwaits image rfl
    rw [← harrived, List.flatMap_cons, List.length_append] at hlt
    omega

end Texture.Image

namespace Connection

variable [Transport τ]

/-- Images of a known version are saved to messages of a connection, whose transport takes whatever
it is asked to send and whose limit no file passes. Just those that fit are sent. Wherever the bytes
that were sent are cut, the receiver of the fragments finds the headers as saving left them and all
payloads that are not empty, in order, and nothing is pending in the end. At any moment it has found
just the images whose files have arrived whole. -/
theorem serve_sendImages {transport : τ} (hwilling : Transport.Willing transport) {limit : Nat}
    (received : Bytes) (traffic : Traffic) {images : List Image}
    (hversion : ∀ image ∈ images, image.header.version = Texture.Version.v1_0.raw)
    (hlimit : ∀ image ∈ images, image.file.length ≤ limit) :
    let sent := images.filter (·.Fits)
    ∃ (outcomes : List (Except Error Header)) (sender : Connection (Recorded τ)),
      ({ transport := ⟨transport, []⟩, limit, received, traffic } : Connection _).sendImages images =
          (outcomes, sender) ∧
        outcomes.map Except.toOption =
          images.map (fun image => if image.Fits then some image.described else none) ∧
        ∀ (fragments : List Bytes) (receiver : Connection υ),
          fragments.flatten = Send.taken sender.sends → receiver.received = [] →
            (∃ last, Image.intake.serve fragments receiver = (sent.map Image.found, last) ∧
              last.received = []) ∧
            ∀ first later, fragments = first ++ later → ∃ arrived rest next,
              sent = arrived ++ rest ∧
                Image.intake.serve first receiver = (arrived.map Image.found, next) ∧
                first.flatten = arrived.flatMap Image.file ++ next.received ∧
                ∀ image ∈ rest.head?, next.received.length < image.file.length := by
  intro sent
  have hstart : Sending limit []
      ({ transport := ⟨transport, []⟩, limit, received, traffic } : Connection (Recorded τ)) :=
    ⟨rfl, rfl, rfl, hwilling⟩
  obtain ⟨houtcomes, hsends⟩ := hstart.sendImages hlimit
  have hversions : ∀ image ∈ sent, image.header.version = Texture.Version.v1_0.raw :=
    fun image himage => hversion image (List.mem_filter.mp himage).1
  have hfits : ∀ image ∈ sent, image.Fits :=
    fun image himage => of_decide_eq_true (List.mem_filter.mp himage).2
  refine ⟨_, _, rfl, houtcomes, ?_⟩
  intro fragments receiver hcut hreceived
  have hfiles : fragments.flatten = sent.flatMap Image.file := by
    rw [hcut, hsends.sends]
    simp [Send.taken, sent, List.flatMap_map, List.filter_map, Function.comp_def]
  refine ⟨Image.serve_eq_found hversions hfits hreceived hfiles, ?_⟩
  rintro first later rfl
  rw [List.flatten_append] at hfiles
  exact Image.serve_of_part hversions hfits hreceived hfiles

/-- An image without a payload, one with too many levels and one with an empty payload between two
others, delivered byte by byte. -/
theorem serve_sendImages_byte_by_byte :
    let empty : Image := ⟨{ width := 2 }, []⟩
    let many : Image := ⟨{}, List.replicate 17 []⟩
    let three : Image := ⟨{ compression := .dxt5, hasMips := true }, [[1, 2, 3], [], [9]]⟩
    ∃ outcomes sender last,
      ({ transport := ⟨⟨[]⟩, []⟩, limit := 146 } : Connection (Recorded Scripted)).sendImages
          [empty, many, three] = (outcomes, sender) ∧
        outcomes.map Except.toOption = [some empty.described, none, some three.described] ∧
        Image.intake.serve ((Send.taken sender.sends).map fun byte => [byte])
            ({ transport := (), limit := 0 } : Connection Unit) =
          ([⟨empty.described, []⟩, ⟨three.described, [[1, 2, 3], [9]]⟩], last) ∧
        last.received = [] := by
  intro empty many three
  have hwilling : Transport.Willing (⟨[]⟩ : Scripted) := by
    refine ⟨(· = ⟨[]⟩), rfl, ?_⟩
    rintro data _ rfl
    exact ⟨_, rfl, rfl⟩
  have hversion : ∀ image ∈ [empty, many, three],
      image.header.version = Texture.Version.v1_0.raw := by decide
  have hlimit : ∀ image ∈ [empty, many, three], image.file.length ≤ 146 := by
    simp [empty, many, three, Texture.headerSize]
  obtain ⟨outcomes, sender, hsend, houtcomes, hserve⟩ :=
    serve_sendImages hwilling [] {} hversion hlimit
  have hcut (bytes : Bytes) : (bytes.map fun byte => [byte]).flatten = bytes := by
    rw [← List.flatMap_def, List.flatMap_singleton']
  obtain ⟨⟨last, hserved, hpending⟩, -⟩ :=
    hserve _ ({ transport := (), limit := 0 } : Connection Unit) (hcut _) rfl
  have hsent : [empty, many, three].filter (·.Fits) = [empty, three] := by decide
  rw [hsent] at hserved
  refine ⟨outcomes, sender, last, hsend, ?_, hserved, hpending⟩
  rw [houtcomes]
  decide

end Connection

end Octet
