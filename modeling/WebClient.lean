import WebClient.Bytes
import WebClient.Coding.Base64
import WebClient.Coding.Checksum
import WebClient.Coding.Deflate
import WebClient.Coding.Gzip
import WebClient.Coding.Huffman
import WebClient.Coding.Inflater
import WebClient.Coding.Sha1
import WebClient.Coding.Zlib
import WebClient.Endpoint.Basic
import WebClient.Endpoint.Parse
import WebClient.Endpoint.Resolve
import WebClient.Exchange.Assembly
import WebClient.Exchange.Chain
import WebClient.Exchange.Channel
import WebClient.Exchange.Config
import WebClient.Exchange.Error
import WebClient.Exchange.Pipeline
import WebClient.Exchange.Redirect
import WebClient.Frame.Drain
import WebClient.Frame.Opcode
import WebClient.Frame.Reader
import WebClient.Frame.Writer
import WebClient.Http.Chunked
import WebClient.Http.ContentCoding
import WebClient.Http.Headers
import WebClient.Http.Request
import WebClient.Http.Request.Writer
import WebClient.Http.Response
import WebClient.Http.Response.Drain
import WebClient.Http.Response.Final
import WebClient.Http.Response.Reader
import WebClient.Log
import WebClient.Net.IpAddress
import WebClient.Net.Network
import WebClient.Net.Stream
import WebClient.Proofs.Bytes
import WebClient.Proofs.Endpoint.DotSegments
import WebClient.Proofs.Endpoint.Forms
import WebClient.Proofs.Endpoint.Resolve
import WebClient.Proofs.Endpoint.Server
import WebClient.Proofs.Endpoint.Shape
import WebClient.Proofs.Endpoint.UrlParts
import WebClient.Proofs.Endpoint.Written
import WebClient.Proofs.Exchange.Bound
import WebClient.Proofs.Exchange.Carried
import WebClient.Proofs.Exchange.Credentials
import WebClient.Proofs.Exchange.HeadOnly
import WebClient.Proofs.Exchange.Installed
import WebClient.Proofs.Exchange.Reading
import WebClient.Proofs.Exchange.Secure
import WebClient.Proofs.Exchange.Stop
import WebClient.Proofs.Frame.Carry
import WebClient.Proofs.Frame.Grammar
import WebClient.Proofs.Frame.Held
import WebClient.Proofs.Frame.Pieces
import WebClient.Proofs.Frame.RoundTrip
import WebClient.Proofs.Frame.Signals
import WebClient.Proofs.Frame.TextMessage
import WebClient.Proofs.Frame.Wire
import WebClient.Proofs.Http.ContentCoding
import WebClient.Proofs.Http.ContentLabels
import WebClient.Proofs.Http.Editing
import WebClient.Proofs.Http.Headers
import WebClient.Proofs.Http.Request.Framing
import WebClient.Proofs.Http.Request.Head
import WebClient.Proofs.Http.Request.ReadBack
import WebClient.Proofs.Http.Response.Account
import WebClient.Proofs.Http.Response.Framing
import WebClient.Proofs.Http.Response.Grammar
import WebClient.Proofs.Http.Response.HeadAlone
import WebClient.Proofs.Http.Response.Interim
import WebClient.Proofs.Http.Response.Limits
import WebClient.Proofs.Http.Response.Pieces
import WebClient.Proofs.Http.Response.Prefix
import WebClient.Proofs.Http.Response.Truncation
import WebClient.Proofs.Http.Response.Wire
import WebClient.Proofs.Http.Setting
import WebClient.Proofs.Http.Wire
import WebClient.Proofs.Settings.Content
import WebClient.Proofs.Settings.UnknownElement
import WebClient.Proofs.Settings.Written
import WebClient.Proofs.Text.Letter
import WebClient.Proofs.Text.Numeral
import WebClient.Proofs.Text.Split
import WebClient.Proofs.Text.Utf8
import WebClient.Proofs.Tls.ServerName
import WebClient.Proofs.WebSocket.Acceptance
import WebClient.Proofs.WebSocket.Afterwards
import WebClient.Proofs.WebSocket.Asking
import WebClient.Proofs.WebSocket.Awaiting
import WebClient.Proofs.WebSocket.Calls
import WebClient.Proofs.WebSocket.Cancellation
import WebClient.Proofs.WebSocket.Channel
import WebClient.Proofs.WebSocket.Closing
import WebClient.Proofs.WebSocket.Connection
import WebClient.Proofs.WebSocket.Conversation
import WebClient.Proofs.WebSocket.Dispatch
import WebClient.Proofs.WebSocket.Finished
import WebClient.Proofs.WebSocket.Handshake
import WebClient.Proofs.WebSocket.Reading
import WebClient.Proofs.WebSocket.Refusal
import WebClient.Proofs.WebSocket.Registry
import WebClient.Proofs.WebSocket.Sendable
import WebClient.Proofs.WebSocket.Switch
import WebClient.Proofs.WebSocket.Termination
import WebClient.Proofs.Xml.Element
import WebClient.Settings.Basic
import WebClient.Settings.Document
import WebClient.Text.Blank
import WebClient.Text.Escaped
import WebClient.Text.Letter
import WebClient.Text.Numeral
import WebClient.Text.Quoted
import WebClient.Text.Split
import WebClient.Text.Unprintable
import WebClient.Text.Utf8
import WebClient.Tls.Context
import WebClient.Tls.ServerName
import WebClient.Traffic
import WebClient.WebSocket.Client
import WebClient.WebSocket.Connection
import WebClient.WebSocket.Conversation
import WebClient.WebSocket.Dispatcher
import WebClient.WebSocket.Error
import WebClient.WebSocket.Hub
import WebClient.WebSocket.Message
import WebClient.WebSocket.Observer
import WebClient.WebSocket.Roster
import WebClient.WebSocket.SendQueue
import WebClient.WebSocket.Session
import WebClient.WebSocket.Upgrade
import WebClient.Xml.Entity
import WebClient.Xml.Event
