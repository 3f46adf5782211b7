import NodeClient.Json.Printer
import NodeClient.Json.Reader
import NodeClient.Encoding.Hex
import NodeClient.Encoding.Base64
import NodeClient.Encoding.IntegerText
import NodeClient.Encoding.Timestamp
import NodeClient.Encoding.Sha256
import NodeClient.Text.Blank
import NodeClient.Envelope.Reader
import NodeClient.Schema.Format
import NodeClient.Chain.Formats
import NodeClient.Chain.Results
import NodeClient.Version
import NodeClient.Client.Error
import NodeClient.Chain.Report
import NodeClient.Client.Canned
import NodeClient.Client.Post
import NodeClient.Link.Basic
import NodeClient.Line.Step
import NodeClient.Script.LineScript
import NodeClient.Exchange.Step
import NodeClient.Exchange.Errand
import NodeClient.Script.ExchangeScript
import NodeClient.Exchange.Opening
import NodeClient.Script.Unreachable
import NodeClient.Proofs.Exchange.Pending
import NodeClient.Proofs.Line.Queue
import NodeClient.Proofs.Exchange.Acceptance
import NodeClient.Proofs.Exchange.LastHolder
import NodeClient.Proofs.Line.Connection
import NodeClient.Proofs.Line.Staleness
import NodeClient.Proofs.Session
import NodeClient.Proofs.Transports
import NodeClient.Proofs.Chain.Families
import NodeClient.Proofs.Chain.Payloads
import NodeClient.Proofs.Line.Opening
import NodeClient.Proofs.Line.Rest
import NodeClient.Proofs.Link.Closed
import NodeClient.Proofs.Envelope.Messages
import NodeClient.Proofs.Exchange.Counting
import NodeClient.Proofs.Line.Replacing
import NodeClient.Proofs.Line.Greeting
import NodeClient.Proofs.Exchange.Numbering
import NodeClient.Proofs.Session.Moves
import NodeClient.Proofs.Session.Resumption
import NodeClient.Proofs.Line.Uninterrupted
import NodeClient.Proofs.Session.Repetition
import NodeClient.Proofs.Mailbox
import NodeClient.Proofs.Exchange.Reading
import NodeClient.Proofs.Exchange.FanOut
import NodeClient.Proofs.Exchange.Interference
import NodeClient.Proofs.Line.History
import NodeClient.Proofs.Line.Handshake
import NodeClient.Proofs.Requests
import NodeClient.Proofs.Client
import NodeClient.Proofs.Link.Wire
import NodeClient.Proofs.Line.Feed
import NodeClient.Proofs.Encoding.Numeral
import NodeClient.Proofs.Encoding.Canonical
import NodeClient.Proofs.Chain.Lists
import NodeClient.Proofs.Chain.Status
import NodeClient.Proofs.Chain.Fullness
