import WebClient.Exchange.Assembly
import WebClient.Exchange.Redirect
import WebClient.Http.Response.Final
import WebClient.Net.Network

/-!
# Channels

A channel is a fresh connection with its pipeline, and serves one exchange: the request goes out
with the fields that a connection needs, the response is read and decoded, and the redirect stage
has the last word. The outcome of an exchange keeps the bytes that went over the connection, those
that were read in the blocks they came in.
-/

namespace WebClient.Exchange

open Http

structure Channel where
  endpoint : Endpoint
  pipeline : Pipeline
  line : Line

/-- What has been written and read in an exchange, and what is done with the response. -/
structure Exchanged where
  sent : Bytes := []
  received : List Bytes := []
  action : Except Error Action

namespace Channel

def connect (network : Network) (number : Nat) (endpoint : Endpoint) (config : Config) :
    Except Error Channel :=
  match ({} : Pipeline).assemble config with
  | (_, .error e) => .error e
  | (pipeline, .ok ()) =>
    match network.connect number endpoint pipeline.tls? with
    | .error (.tcp e) => .error (.stream e)
    | .error (.tls e) => .error (.tls (.handshake e))
    | .ok line => .ok { endpoint, pipeline, line }

/-- The request with the fields that the connection needs and the caller has not given. -/
def prepare (channel : Channel) (request : Request) : Request :=
  let request :=
    if request.headers.has "Host" then request
    else request.setHeader "Host" channel.endpoint.authority
  let request :=
    if request.headers.has "Connection" then request else request.setHeader "Connection" "close"
  if channel.pipeline.hasCompressor then ContentCoding.prepare request else request

def write (channel : Channel) (request : Request) : Except Error Bytes :=
  match channel.pipeline.encoder? with
  | none => .error (.missingStage Stage.encoderName)
  | some chunkingDisabled => (request.encode (!chunkingDisabled)).mapError .write

/-- What comes of an answer of the reader when nothing more can be read: a body that ends with the
stream is complete. -/
def finishReading (answer : ResponseReader.Answer) (readFailure : Option StreamError) :
    Except Error Response :=
  match answer.result, readFailure with
  | .error e, _ => .error (.read e)
  | .ok (some response), _ => .ok response
  | .ok none, some e => .error (.stream e)
  | .ok none, none =>
    match (answer.reader.decodeEnd answer.rest).result with
    | .error e => .error (.read e)
    | .ok none => .error .incompleteResponse
    | .ok (some response) => .ok response

/-- Reads the final response from pieces; with it come the pieces that were needed. -/
def readResponse (reader : ResponseReader) (buffer : Bytes) (readFailure : Option StreamError) :
    (pieces : List Bytes) → List Bytes × Except Error Response
  | [] => ([], finishReading (reader.decodeFinal buffer) readFailure)
  | piece :: pieces =>
    let answer := reader.decodeFinal buffer
    match answer.result with
    | .error e => ([], .error (.read e))
    | .ok (some response) => ([], .ok response)
    | .ok none =>
      let (read, response) :=
        readResponse answer.reader (answer.rest ++ piece) readFailure pieces
      (piece :: read, response)

def decodeContent (channel : Channel) (response : Response) : Except Error Response :=
  if channel.pipeline.hasCompressor then
    (ContentCoding.decode .standard response).mapError .content
  else .ok response

def conclude (channel : Channel) (request : Request) (hops : UInt32) (response : Response) :
    Except Error Action :=
  match channel.decodeContent response, channel.pipeline.redirect? with
  | .error e, _ => .error e
  | .ok _, none => .error (.missingStage Stage.redirectName)
  | .ok response, some config => config.onResponse channel.endpoint request response hops

def exchange (channel : Channel) (request : Request) (hops : UInt32) : Exchanged :=
  let request := channel.prepare request
  match channel.write request with
  | .error e => { action := .error e }
  | .ok sent =>
    let reply := channel.line.reply sent
    match reply.writeFailure, channel.pipeline.decoder? with
    | some e, _ => { sent, action := .error (.stream e) }
    | none, none => { sent, action := .error (.missingStage Stage.decoderName) }
    | none, some reader =>
      let (received, response) := readResponse reader [] reply.readFailure reply.pieces
      { sent, received, action := response.bind (channel.conclude request hops) }

theorem redirect?_of_connect {network : Network} {number : Nat} {endpoint : Endpoint}
    {config : Config} {channel : Channel}
    (h : connect network number endpoint config = .ok channel) :
    channel.pipeline.redirect? = some config := by
  simp only [connect, Pipeline.assemble_empty] at h
  split at h <;> simp only [Except.ok.injEq, reduceCtorEq] at h
  subst h
  simp

/-- When an exchange leads to another hop, the redirect stage has said so of some response. -/
theorem onResponse_of_exchange {channel : Channel} {request : Request} {hops : UInt32}
    {config : Config} {hop : Hop} (hc : channel.pipeline.redirect? = some config)
    (h : (channel.exchange request hops).action = .ok (.follow hop)) :
    ∃ response, config.onResponse channel.endpoint (channel.prepare request) response hops =
      .ok (.follow hop) := by
  unfold exchange at h
  dsimp only at h
  split at h
  · simp at h
  · split at h
    · simp at h
    · simp at h
    · generalize readResponse _ _ _ _ = result at h
      obtain ⟨received, _ | response⟩ := result
      · simp [Except.bind] at h
      · simp only [Except.bind, conclude, hc] at h
        split at h
        · simp at h
        · simp at h
        · next decoded config' _ he =>
          simp only [Option.some.injEq] at he
          exact ⟨decoded, he ▸ h⟩

end Channel

end WebClient.Exchange
