import CommunityGraph.Decimal.Shortest
import CommunityGraph.FileTree
import CommunityGraph.Settings.Decode

/-! The command line: its options, and a run from reading settings and graph to reporting the
result and the labels to write. -/
namespace CommunityGraph.CommandLine

structure Arguments where
  dataset : String
  graphFile : Option String
  task : String
  numThreads : Option Nat
  config : Option String
  algorithmConfig : Option String
  orientation : String
  progress : Bool
  output : Option String
  deriving DecidableEq, Repr

def Arguments.default : Arguments :=
  ⟨"example", none, "louvain", none, none, none, "undirected", false, none⟩

inductive Switch where
  | dataset
  | graphFile
  | task
  | numThreads
  | config
  | algorithmConfig
  | orientation
  | progress
  | output
  | help
  | version
  deriving DecidableEq, Repr

namespace Switch

def all : List Switch :=
  [dataset, graphFile, task, numThreads, config, algorithmConfig, orientation, progress, output,
    help, version]

def letter : Switch → Char
  | dataset => 'd'
  | graphFile => 'g'
  | task => 't'
  | numThreads => 'n'
  | config => 'c'
  | algorithmConfig => 'a'
  | orientation => 'o'
  | progress => 'p'
  | output => 'w'
  | help => 'h'
  | version => 'V'

def word : Switch → String
  | dataset => "dataset"
  | graphFile => "graph-file"
  | task => "task"
  | numThreads => "num-threads"
  | config => "config"
  | algorithmConfig => "algorithm-config"
  | orientation => "orientation"
  | progress => "progress"
  | output => "output"
  | help => "help"
  | version => "version"

def ofLetter? (c : Char) : Option Switch := all.find? fun s => s.letter = c

def ofWord? (text : List Char) : Option Switch := all.find? fun s => s.word.toList = text

def takesValue : Switch → Bool
  | progress | help | version => false
  | _ => true

end Switch

inductive Stop where
  | usage
  | information
  deriving DecidableEq, Repr

structure Progress where
  arguments : Arguments
  used : List Switch

def use (p : Progress) (s : Switch) (value : List Char) : Except Stop Progress :=
  let text := String.ofList value
  let accept (a : Arguments) : Except Stop Progress :=
    if s ∈ p.used then .error .usage else .ok ⟨a, s :: p.used⟩
  let a := p.arguments
  match s with
  | .help | .version => .error .information
  | .dataset => accept { a with dataset := text }
  | .graphFile => accept { a with graphFile := some text }
  | .task => accept { a with task := text }
  | .numThreads =>
      match Literal.word? value with
      | none => .error .usage
      | some n => accept { a with numThreads := some n }
  | .config => accept { a with config := some text }
  | .algorithmConfig => accept { a with algorithmConfig := some text }
  | .orientation => accept { a with orientation := text }
  | .progress => accept { a with progress := true }
  | .output => accept { a with output := some text }

inductive Reading where
  | done (p : Progress)
  | wants (s : Switch) (p : Progress)

def readLetters (p : Progress) : List Char → Except Stop Reading
  | [] => .ok (.done p)
  | c :: rest =>
      match Switch.ofLetter? c with
      | none => .error .usage
      | some s =>
          if s.takesValue then
            match rest with
            | [] => .ok (.wants s p)
            | '=' :: value => (use p s value).map .done
            | value => (use p s value).map .done
          else
            match use p s [] with
            | .error e => .error e
            | .ok p => readLetters p rest

def readWord (p : Progress) (text : List Char) : Except Stop Reading :=
  let name := text.takeWhile fun c => c ≠ '='
  let value := text.dropWhile fun c => c ≠ '='
  match Switch.ofWord? name with
  | none => .error .usage
  | some s =>
      match s.takesValue, value with
      | true, [] => .ok (.wants s p)
      | true, _ :: value => (use p s value).map .done
      | false, [] => (use p s []).map .done
      | false, _ :: _ => .error .usage

def looksLikeSwitch (arg : List Char) : Bool :=
  match arg with
  | '-' :: _ :: _ => true
  | _ => false

def readAll (p : Progress) (wanted : Option Switch) : List (List Char) → Except Stop Progress
  | [] =>
      match wanted with
      | none => .ok p
      | some _ => .error .usage
  | arg :: args =>
      match wanted with
      | some s =>
          if looksLikeSwitch arg then .error .usage
          else
            match use p s arg with
            | .error e => .error e
            | .ok p => readAll p none args
      | none =>
          let reading : Except Stop Reading := match arg with
            | ['-', '-'] => if args.isEmpty then .ok (.done p) else .error .usage
            | '-' :: '-' :: text => readWord p text
            | '-' :: c :: rest => readLetters p (c :: rest)
            | _ => .error .usage
          match reading with
          | .error e => .error e
          | .ok (.done p) => readAll p none args
          | .ok (.wants s p) => readAll p (some s) args

def Arguments.ofList (args : List String) : Except Stop Arguments :=
  (readAll ⟨.default, []⟩ none (args.map String.toList)).map Progress.arguments

def orientationOf (text : String) : Except EngineError Orientation :=
  let lower := text.toLower
  if lower = "natural" then .ok .natural
  else if lower = "reverse" then .ok .reverse
  else if lower = "undirected" then .ok .undirected
  else .error (.invalidConfiguration "orientation"
    ("expected natural, reverse or undirected, got '" ++ lower ++ "'"))

structure Plan where
  graphPath : String
  graph : LoaderConfig
  engine : EngineConfig
  algorithm : Option AlgorithmConfig

abbrev Reader := String → Option (List UInt8)

def engineSettings (a : Arguments) (read : Reader) : Except EngineError EngineConfig := do
  let base ← match a.config with
    | none => .ok EngineConfig.default
    | some path => Settings.engineFile (read path)
  let base := match a.numThreads with
    | none => base
    | some n => { base with concurrency := n }
  { base with showProgress := base.showProgress || a.progress }.validate

def algorithmSettings (a : Arguments) (read : Reader) :
    Except EngineError (Option AlgorithmConfig) :=
  match a.algorithmConfig with
  | none => .ok none
  | some path =>
      match (read path).bind Text.utf8? with
      | none => .error .unreadable
      | some text => (Settings.decode Settings.Node.algorithmConfig? text).map some

def Arguments.graphPath (a : Arguments) : String :=
  a.graphFile.getD ("data/" ++ a.dataset ++ ".graph")

def plan (a : Arguments) (read : Reader) : Except EngineError Plan := do
  let engine ← engineSettings a read
  let algorithm ← algorithmSettings a read
  let orientation ← orientationOf a.orientation
  .ok {
    graphPath := a.graphPath
    graph :=
      { LoaderConfig.default with
        orientation := orientation
        concurrency := engine.concurrency
        bufferSize := engine.localBufferSize
        showProgress := engine.showProgress }
    engine := engine
    algorithm := algorithm }

def wordBytes (n : Nat) : List UInt8 := (digits 256 8 n).map UInt8.ofNat

def labelBytes (g : Graph Float) (labels : List Nat) : List UInt8 :=
  wordBytes labels.length ++
    (labels.mapIdx fun node label =>
      wordBytes (g.externalId node % UInt64.size).toNat ++ wordBytes label).flatten

def summary (task : String) : AlgorithmResult → String
  | .louvain r =>
      task ++ " Communities: " ++ toString r.communityCount ++ ", Modularity: " ++
        Decimal.fixedText 6 r.modularity ++ ", Levels: " ++ toString r.ranLevels ++
        ", Converged: " ++ (if r.didConverge then "true" else "false")
  | .wcc r => task ++ " Components: " ++ toString r.count

structure Execution where
  printed : List String
  logged : List LogLine
  outcome : Except EngineError (Option (String × List UInt8))

def loadingTask : Task := .group "Graph Loading" [.leaf "Parse" 0, .leaf "Build" 0]

def logOf (root : Task) (j : Journal) : List LogLine :=
  ((Tracker.make root).lines j.entries.toList).filter fun line => line.level ≠ .debug

def taskOf (name : String) (g : Graph Float) (config : Option AlgorithmConfig)
    (context : RunContext) : Task :=
  match Registry.standard.get name with
  | .error _ => .group name []
  | .ok a =>
      match a.plannedTask g (config.getD (a.defaultConfig context)) with
      | .error _ => .group name []
      | .ok task => task

def execute (a : Arguments) (read : Reader) : Execution :=
  match plan a read with
  | .error e => ⟨[], [], .error e⟩
  | .ok p =>
      match GraphFile.loadFile (read p.graphPath) p.graph .always .empty with
      | (.error e, j) => ⟨[], logOf loadingTask j, .error e⟩
      | (.ok graph, j) =>
          let loaded := "Graph Loading Elapsed Time:"
          let logged := logOf loadingTask j
          let context := RunContext.ofEngine p.engine
          let root := taskOf a.task graph p.algorithm context
          match Registry.standard.run a.task graph p.algorithm context context.termination
              .empty with
          | (.error e, j) => ⟨[loaded], logged ++ logOf root j, .error e⟩
          | (.ok result, j) =>
              let task := a.task.toUpper
              ⟨[loaded, summary task result, task ++ " Elapsed Time:"], logged ++ logOf root j,
                .ok (a.output.map fun path => (path, labelBytes graph result.nodeLabels))⟩

structure Report where
  exitCode : Nat
  printed : List String
  logged : List LogLine
  error : Option String
  written : Option (String × List UInt8)

def Report.failed (printed : List String) (logged : List LogLine) (e : EngineError) : Report :=
  if e.isFatal then ⟨101, printed, logged, none, none⟩
  else ⟨1, printed, logged, some e.message, none⟩

def run (args : List String) (read : Reader) (canWrite : String → Bool) : Report :=
  match Arguments.ofList args with
  | .error .usage => ⟨2, [], [], none, none⟩
  | .error .information => ⟨0, [], [], none, none⟩
  | .ok a =>
      match execute a read with
      | ⟨printed, logged, .error e⟩ => .failed printed logged e
      | ⟨printed, logged, .ok none⟩ => ⟨0, printed, logged, none, none⟩
      | ⟨printed, logged, .ok (some (path, bytes))⟩ =>
          if canWrite path then ⟨0, printed, logged, none, some (path, bytes)⟩
          else .failed printed logged .unreadable

def runIn (tree : FileTree) (args : List String) : Report × FileTree :=
  let report := run args tree.read tree.canWrite
  match report.written with
  | none => (report, tree)
  | some (path, bytes) => (report, tree.write path bytes)

end CommunityGraph.CommandLine
