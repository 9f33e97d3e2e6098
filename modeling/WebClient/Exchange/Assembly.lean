import WebClient.Exchange.Pipeline

/-!
# Assembling pipelines

A configuration says which stages the pipeline of a connection has. TLS comes first, next to the
stream, and the stage that follows redirects last, so that it sees whole responses. Assembling on a
pipeline that has one of the names already fails there, with the stages before it added.
-/

namespace WebClient.Exchange

namespace Config

def stages (config : Config) : List (String × Stage) :=
  (config.tls.toList.map fun context => (Stage.tlsName, .tls context)) ++
  [(Stage.compressorName, .compressor), (Stage.decoderName, .decoder {}),
    (Stage.encoderName, .encoder config.settings.chunkingDisabled)] ++
  (if config.settings.traceLogging then
    [(Stage.trafficLogName, .trafficLog { side := .client })] else []) ++
  [(Stage.redirectName, .redirect config)]

end Config

namespace Pipeline

/-- The pipeline with the stages of a configuration behind its own. -/
def assemble (p : Pipeline) (config : Config) : Pipeline × Except Error Unit :=
  p.addAll config.stages

def ofConfig (config : Config) : Pipeline :=
  { stages := config.stages }

theorem assemble_empty (config : Config) :
    ({} : Pipeline).assemble config = (ofConfig config, .ok ()) := by
  obtain ⟨origin, ⟨trace, _, _, _⟩, tls⟩ := config
  cases tls <;> cases trace <;> rfl

@[simp] theorem redirect?_ofConfig (config : Config) :
    (ofConfig config).redirect? = some config := by
  obtain ⟨origin, ⟨trace, _, _, _⟩, tls⟩ := config
  cases tls <;> cases trace <;> rfl

@[simp] theorem decoder?_ofConfig (config : Config) : (ofConfig config).decoder? = some {} := by
  obtain ⟨origin, ⟨trace, _, _, _⟩, tls⟩ := config
  cases tls <;> cases trace <;> rfl

@[simp] theorem hasCompressor_ofConfig (config : Config) :
    (ofConfig config).hasCompressor = true := by
  obtain ⟨origin, ⟨trace, _, _, _⟩, tls⟩ := config
  cases tls <;> cases trace <;> rfl

end Pipeline

end WebClient.Exchange
