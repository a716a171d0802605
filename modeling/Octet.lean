import Octet.Sink.Stream
import Octet.Texture.Save
import Octet.Connection.Outgoing
import Octet.Connection.Incoming
import Octet.Settings.File
import Octet.Logger
import Octet.CommandLine
import Octet.Main
import Octet.Proofs.Texture.Crash
import Octet.Proofs.Texture.RoundTrip
import Octet.Proofs.Writer.Backpatch
import Octet.Proofs.Sink.Position
import Octet.Proofs.Source.Position
import Octet.Proofs.Connection.Session
import Octet.Proofs.Connection.Traffic
import Octet.Proofs.Connection.Shape
import Octet.Proofs.Sink.Outgoing
import Octet.Proofs.Frame
import Octet.Proofs.Connection.Halves
import Octet.Proofs.Texture.Image
import Octet.Proofs.Texture.Transfer
import Octet.Proofs.Source.Exchange
import Octet.Proofs.Writer.Exchange
import Octet.Proofs.Writer.Failure
import Octet.Proofs.Reader.Truncation
import Octet.Proofs.Item
import Octet.Proofs.Texture.Verdict
import Octet.Proofs.Sink.Correction
import Octet.Proofs.Writer.Commit
import Octet.Proofs.Connection.Restart
import Octet.Proofs.Texture.Access
import Octet.Proofs.Texture.Atomicity
import Octet.Proofs.Texture.Failure
import Octet.Proofs.Texture.Canonical
import Octet.Proofs.Texture.Draft
import Octet.Proofs.Texture.Send
import Octet.Proofs.Source.Skip
import Octet.Proofs.Sink.Extent
import Octet.Proofs.Texture.Usage
import Octet.Proofs.Bulk
import Octet.Proofs.Checked.Safety
import Octet.Proofs.CommandLine
import Octet.Proofs.Settings.RoundTrip
