import Mathlib.Data.List.Nodup
import WebClient.Exchange.Assembly

/-!
# What is installed in a pipeline

A pipeline grows by stages that are added one at a time and by those of a configuration, which are
added in a row. No name is ever used twice, so a name stands for one stage. A stage whose name is in
use is refused, and a row ends there, with the stages in front of it installed (`Adds`). So a
configuration goes into a pipeline exactly when the pipeline has none of its names.
-/

namespace WebClient.Exchange

namespace Pipeline

inductive Call where
  | addLast (name : String) (stage : Stage)
  | assemble (config : Config)

/-- The pipeline behind a call, and what the call comes to. -/
def call (p : Pipeline) : Call → Pipeline × Except Error Unit
  | .addLast name stage =>
    match p.addLast name stage with
    | .ok p => (p, .ok ())
    | .error e => (p, .error e)
  | .assemble config => p.assemble config

def ofCalls (calls : List Call) : Pipeline :=
  calls.foldl (fun p next => (p.call next).1) {}

variable {p : Pipeline} {name : String}

theorem contains_iff : p.contains name = true ↔ name ∈ p.names := by
  simp [contains, names]

/-! ### One stage for each name -/

/-- The name stands for the stage at one place, and for no other. -/
structure Holds (p : Pipeline) (name : String) (place : Nat) (stage : Stage) : Prop where
  stage_at : p.stages[place]? = some (name, stage)
  unique : ∀ other stage', p.stages[other]? = some (name, stage') → other = place
  position?_eq : p.position? name = some place
  get?_eq : p.get? name = some stage
  contains_eq : p.contains name = true

/-- Nothing stands under the name. -/
structure Lacks (p : Pipeline) (name : String) : Prop where
  not_mem : name ∉ p.names
  position?_eq : p.position? name = none
  get?_eq : p.get? name = none
  contains_eq : p.contains name = false

theorem lacks_of_not_mem (h : name ∉ p.names) : p.Lacks name := by
  have hnone : ∀ entry ∈ p.stages, (entry.1 == name) = false := by
    intro entry hentry
    refine beq_eq_false_iff_ne.2 fun heq => h ?_
    exact heq ▸ List.mem_map_of_mem hentry
  refine ⟨h, List.findIdx?_eq_none_iff.2 hnone, ?_, ?_⟩
  · rw [get?, List.find?_eq_none.2 fun entry hentry => ne_true_of_eq_false (hnone entry hentry)]
    rfl
  · exact List.any_eq_false.2 fun entry hentry => ne_true_of_eq_false (hnone entry hentry)

theorem exists_holds (hnodup : p.names.Nodup) (h : name ∈ p.names) :
    ∃ place stage, p.Holds name place stage := by
  obtain ⟨place, hplace, hname⟩ := List.mem_iff_getElem.1 h
  have hlength : place < p.stages.length := by simpa [names] using hplace
  have hstage : p.stages[place]? = some (name, p.stages[place].2) := by
    rw [List.getElem?_eq_getElem hlength, ← hname]
    simp [names]
  have hunique : ∀ other stage', p.stages[other]? = some (name, stage') → other = place := by
    intro other stage' hother
    have hsame : p.names[place]? = p.names[other]? := by simp [names, hother, hstage]
    exact ((List.getElem?_inj hplace hnodup).1 hsame).symm
  have hown : (p.stages[place].1 == name) = true := by simpa [names] using hname
  have hbefore : ∀ other (hlt : other < place), ¬ (p.stages[other].1 == name) = true := by
    intro other hlt heq
    refine Nat.ne_of_lt hlt (hunique other p.stages[other].2 ?_)
    rw [List.getElem?_eq_getElem, ← eq_of_beq heq]
  refine ⟨place, p.stages[place].2, hstage, hunique, ?_, ?_, contains_iff.2 h⟩
  · exact List.findIdx?_eq_some_iff_getElem.2 ⟨hlength, hown, hbefore⟩
  · have hfind : p.stages.find? (·.1 == name) = some p.stages[place] :=
      List.find?_eq_some_iff_getElem.2 ⟨hown, place, hlength, rfl, fun other hlt => by
        simpa using hbefore other hlt⟩
    rw [get?, hfind]
    rfl

/-! ### Stages added in a row -/

theorem addLast_of_mem (h : name ∈ p.names) (stage : Stage) :
    p.addLast name stage = .error (.duplicateStage name) := by
  rw [addLast, if_pos (contains_iff.2 h)]

theorem addLast_of_not_mem (h : name ∉ p.names) (stage : Stage) :
    p.addLast name stage = .ok { stages := p.stages ++ [(name, stage)] } := by
  rw [addLast, if_neg (by rwa [contains_iff])]

def Fits (p : Pipeline) (row : List (String × Stage)) : Prop :=
  ∀ entry ∈ row, entry.1 ∉ p.names

/-- What adding a row of stages comes to: all of them stand behind those of the pipeline, or those
in front of the first whose name is in use. -/
inductive Adds (p : Pipeline) (row : List (String × Stage)) (q : Pipeline) :
    Except Error Unit → Prop
  | all (hfits : p.Fits row) (hstages : q.stages = p.stages ++ row) : Adds p row q (.ok ())
  | upTo {before after : List (String × Stage)} {name : String} {stage : Stage}
      (hrow : row = before ++ (name, stage) :: after) (hfits : p.Fits before)
      (hused : name ∈ p.names) (hstages : q.stages = p.stages ++ before) :
      Adds p row q (.error (.duplicateStage name))

theorem fits_nil : p.Fits [] :=
  fun _ hentry => nomatch hentry

theorem fits_cons {entry : String × Stage} {row : List (String × Stage)} :
    p.Fits (entry :: row) ↔ entry.1 ∉ p.names ∧ p.Fits row :=
  List.forall_mem_cons

theorem mem_names_concat {stage : Stage} {other : String} :
    other ∈ names { stages := p.stages ++ [(name, stage)] } ↔ other ∈ p.names ∨ other = name := by
  simp [names]

/-- Behind a stage that is added, the rest of a row goes on as if that stage had been there. -/
theorem Adds.cons {q : Pipeline} {stage : Stage} {row : List (String × Stage)}
    {result : Except Error Unit} (hnew : name ∉ p.names) (hrow : name ∉ row.map Prod.fst)
    (h : Adds { stages := p.stages ++ [(name, stage)] } row q result) :
    p.Adds ((name, stage) :: row) q result := by
  have hfits {part : List (String × Stage)}
      (hpart : Fits { stages := p.stages ++ [(name, stage)] } part) :
      p.Fits ((name, stage) :: part) :=
    fits_cons.2 ⟨hnew, fun entry hentry hmem => hpart entry hentry (mem_names_concat.2 (.inl hmem))⟩
  cases h with
  | all hall hstages => exact .all (hfits hall) (by rw [hstages, List.append_assoc]; rfl)
  | @upTo before after other stage' hsplit hbefore hused hstages =>
    -- The name in use is an old one, for the new one does not stand in the row again.
    have hne : other ≠ name := by
      rintro rfl
      exact hrow (by simp [hsplit])
    have hcons : (name, stage) :: row = (name, stage) :: before ++ (other, stage') :: after := by
      rw [hsplit, List.cons_append]
    refine .upTo hcons (hfits hbefore) ((mem_names_concat.1 hused).resolve_right hne) ?_
    rw [hstages, List.append_assoc]
    rfl

/-- **A row of stages** with different names. -/
theorem adds_addAll {row : List (String × Stage)} (hnodup : (row.map Prod.fst).Nodup) :
    p.Adds row (p.addAll row).1 (p.addAll row).2 := by
  induction row generalizing p with
  | nil => exact .all fits_nil (List.append_nil _).symm
  | cons entry row ih =>
    obtain ⟨name, stage⟩ := entry
    obtain ⟨hname, hrow⟩ := List.nodup_cons.1 hnodup
    by_cases hused : name ∈ p.names
    · rw [addAll, addLast_of_mem hused]
      have hfirst : (name, stage) :: row = [] ++ (name, stage) :: row := rfl
      exact .upTo hfirst fits_nil hused (List.append_nil _).symm
    · rw [addAll, addLast_of_not_mem hused]
      exact (ih hrow).cons hused hname

theorem nodup_names_stages (config : Config) : (config.stages.map Prod.fst).Nodup := by
  have hall : [Stage.tlsName, Stage.compressorName, Stage.decoderName, Stage.encoderName,
      Stage.trafficLogName, Stage.redirectName].Nodup := by decide
  refine hall.sublist ?_
  unfold Config.stages
  cases config.tls <;> cases config.settings.traceLogging <;> simp

/-! ### Calls -/

theorem Adds.nodup {q : Pipeline} {row : List (String × Stage)} {result : Except Error Unit}
    (h : p.Adds row q result) (hrow : (row.map Prod.fst).Nodup) (hnodup : p.names.Nodup) :
    q.names.Nodup := by
  have happend {part : List (String × Stage)} (hpart : (part.map Prod.fst).Nodup)
      (hfits : p.Fits part) (hstages : q.stages = p.stages ++ part) : q.names.Nodup := by
    rw [names, hstages, List.map_append]
    refine List.nodup_append.2 ⟨hnodup, hpart, ?_⟩
    rintro a ha b hb rfl
    obtain ⟨entry, hentry, rfl⟩ := List.mem_map.1 hb
    exact hfits entry hentry ha
  cases h with
  | all hfits hstages => exact happend hrow hfits hstages
  | upTo hsplit hfits _ hstages =>
    rw [hsplit, List.map_append] at hrow
    exact happend (List.nodup_append.1 hrow).1 hfits hstages

def Call.row : Call → List (String × Stage)
  | .addLast name stage => [(name, stage)]
  | .assemble config => config.stages

theorem call_eq_addAll (p : Pipeline) (next : Call) : p.call next = p.addAll next.row := by
  cases next with
  | assemble config => rfl
  | addLast name stage =>
    cases hadd : p.addLast name stage <;> simp only [call, Call.row, addAll, hadd]

theorem Call.nodup_row (next : Call) : (next.row.map Prod.fst).Nodup := by
  cases next with
  | addLast name stage => exact List.nodup_singleton name
  | assemble config => exact nodup_names_stages config

theorem adds_call (p : Pipeline) (next : Call) :
    p.Adds next.row (p.call next).1 (p.call next).2 := by
  rw [call_eq_addAll]
  exact adds_addAll next.nodup_row

/-- **No name is used twice**, whatever was done to a pipeline. -/
theorem nodup_names_ofCalls (calls : List Call) : (ofCalls calls).names.Nodup := by
  suffices h : ∀ p : Pipeline, p.names.Nodup →
      (calls.foldl (fun p next => (p.call next).1) p).names.Nodup from h {} List.nodup_nil
  induction calls with
  | nil => exact fun p h => h
  | cons next calls ih =>
    intro p h
    exact ih (p.call next).1 ((adds_call p next).nodup next.nodup_row h)

theorem Adds.eq_ok_iff {q : Pipeline} {row : List (String × Stage)} {result : Except Error Unit}
    (h : p.Adds row q result) : result = .ok () ↔ p.Fits row := by
  cases h with
  | all hfits => simp [hfits]
  | @upTo before after name stage hsplit hfits hused =>
    have hnot : ¬ p.Fits row := fun hall => hall (name, stage) (by simp [hsplit]) hused
    simp [hnot]

/-- **What a pipeline has installed**, whatever stages and configurations were added to it, and
whether that succeeded or not. No name stands twice, so that looking for a place, for a stage and
for a name all find the same stage or nothing. A stage is refused exactly when its name is in use,
and then nothing changes. A configuration is taken exactly when none of the names of its row is in
use: the row then stands behind the stages that were there before. Otherwise the first name in use
is reported, and the stages in front of it have been added. -/
theorem installed_of_calls (calls : List Call) :
    let p := ofCalls calls
    p.names.Nodup ∧
      (∀ name, p.Lacks name ∨ ∃ place stage, p.Holds name place stage) ∧
      (∀ name stage, p.call (.addLast name stage) =
        if name ∈ p.names then (p, .error (.duplicateStage name))
        else ({ stages := p.stages ++ [(name, stage)] }, .ok ())) ∧
      ∀ config : Config,
        let row := (config.tls.toList.map fun context => ("ssl", Stage.tls context)) ++
          [("compressor", .compressor), ("decoder", .decoder {}),
            ("encoder", .encoder config.settings.chunkingDisabled)] ++
          (if config.settings.traceLogging then
            [("http-trace-logger", .trafficLog { side := .client })] else []) ++
          [("redirect-handler", .redirect config)]
        let q := p.call (.assemble config)
        (q.2 = .ok () ↔ p.Fits row) ∧ p.Adds row q.1 q.2 := by
  intro p
  have hnodup : p.names.Nodup := nodup_names_ofCalls calls
  refine ⟨hnodup, fun name => ?_, fun name stage => ?_, fun config => ?_⟩
  · by_cases h : name ∈ p.names
    · exact .inr (exists_holds hnodup h)
    · exact .inl (lacks_of_not_mem h)
  · split
    · next hused => simp only [call, addLast_of_mem hused]
    · next hnew => simp only [call, addLast_of_not_mem hnew]
  · intro row q
    have hadds : p.Adds row q.1 q.2 := adds_call p (.assemble config)
    exact ⟨hadds.eq_ok_iff, hadds⟩

end Pipeline

end WebClient.Exchange
