import WebClient.Exchange.Config
import WebClient.Exchange.Error
import WebClient.Traffic

/-!
# Pipelines

What the bytes of a connection pass through is a row of stages, each under a name of its own. A
stage is found by its name, and does its work only under the name that is reserved for its kind.
-/

namespace WebClient.Exchange

/-- One stage: TLS, content codings, the reader of responses, the writer of requests, the traffic
log, or the follower of redirects. -/
inductive Stage where
  | tls (context : TlsContext)
  | compressor
  | decoder (reader : Http.ResponseReader)
  | encoder (chunkingDisabled : Bool)
  | trafficLog (log : TrafficLog)
  | redirect (config : Config)

namespace Stage

def kind : Stage → String
  | tls _ => "tls"
  | compressor => "compressor"
  | decoder _ => "decoder"
  | encoder _ => "encoder"
  | trafficLog _ => "trace-logger"
  | redirect _ => "redirect"

def tlsName : String := "ssl"

def compressorName : String := "compressor"

def decoderName : String := "decoder"

def encoderName : String := "encoder"

def trafficLogName : String := "http-trace-logger"

def redirectName : String := "redirect-handler"

end Stage

/-- Named stages, the one next to the stream first. -/
structure Pipeline where
  stages : List (String × Stage) := []

namespace Pipeline

def names (p : Pipeline) : List String :=
  p.stages.map (·.1)

def text (p : Pipeline) : String :=
  "[" ++ ", ".intercalate (p.names.map Text.quoted) ++ "]"

def position? (p : Pipeline) (name : String) : Option Nat :=
  p.stages.findIdx? (·.1 == name)

def get? (p : Pipeline) (name : String) : Option Stage :=
  (p.stages.find? (·.1 == name)).map (·.2)

def contains (p : Pipeline) (name : String) : Bool :=
  p.stages.any (·.1 == name)

/-- The pipeline with a stage behind the others. A name in use is found before anything is added, so
a refusal leaves the pipeline as it was. -/
def addLast (p : Pipeline) (name : String) (stage : Stage) : Except Error Pipeline :=
  if p.contains name then .error (.duplicateStage name)
  else .ok { stages := p.stages ++ [(name, stage)] }

/-- The pipeline with stages added one after the other; the first that cannot be added ends this,
and those before it stay. -/
def addAll (p : Pipeline) : List (String × Stage) → Pipeline × Except Error Unit
  | [] => (p, .ok ())
  | (name, stage) :: rest =>
    match p.addLast name stage with
    | .ok p => p.addAll rest
    | .error e => (p, .error e)

def tls? (p : Pipeline) : Option TlsContext :=
  match p.get? Stage.tlsName with
  | some (.tls context) => some context
  | _ => none

def hasCompressor (p : Pipeline) : Bool :=
  match p.get? Stage.compressorName with
  | some .compressor => true
  | _ => false

def decoder? (p : Pipeline) : Option Http.ResponseReader :=
  match p.get? Stage.decoderName with
  | some (.decoder reader) => some reader
  | _ => none

/-- Whether the writer of requests has chunking disabled, if there is one. -/
def encoder? (p : Pipeline) : Option Bool :=
  match p.get? Stage.encoderName with
  | some (.encoder chunkingDisabled) => some chunkingDisabled
  | _ => none

def trafficLog? (p : Pipeline) : Option TrafficLog :=
  match p.get? Stage.trafficLogName with
  | some (.trafficLog log) => some log
  | _ => none

def redirect? (p : Pipeline) : Option Config :=
  match p.get? Stage.redirectName with
  | some (.redirect config) => some config
  | _ => none

end Pipeline

end WebClient.Exchange
