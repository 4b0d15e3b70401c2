/-! Failures that reach a caller: one constructor per cause, and the wording of each. -/
namespace CommunityGraph

inductive EngineError where
  | invalidConfiguration (key message : String)
  | aggregationMismatch (detail : String)
  | dimensionMismatch (key : String) (expected actual : Nat)
  | unmappedNodes (ids : List Int)
  | invalidPropertyValue (key value : String)
  | nodeOutOfRange (node nodeCount : Nat)
  | propertyNotFound (key : String)
  | allocationFailed (bytes : Nat)
  | terminated
  | builderClosed
  | alreadyBuilt
  | unknownAlgorithm (name : String)
  | configurationKind (algorithm config : String)
  | workersUnavailable (reason : String)
  | unreadable
  | parse (line : Nat) (message : String)
  | malformedSettings
  | serialization
  | capacityOverflow
  | outOfMemory (bytes : Nat)
  deriving DecidableEq, Repr

def joinItems (items : List String) : String := ", ".intercalate items

namespace EngineError

def kind : EngineError → String
  | invalidConfiguration .. => "InvalidConfiguration"
  | aggregationMismatch .. => "AggregationMismatch"
  | dimensionMismatch .. => "DimensionMismatch"
  | unmappedNodes .. => "UnmappedNodeId"
  | invalidPropertyValue .. => "InvalidPropertyValue"
  | nodeOutOfRange .. => "NodeOutOfRange"
  | propertyNotFound .. => "PropertyNotFound"
  | allocationFailed .. => "AllocationFailed"
  | terminated => "Terminated"
  | builderClosed => "BuilderClosed"
  | alreadyBuilt => "AlreadyBuilt"
  | unknownAlgorithm .. => "UnknownAlgorithm"
  | configurationKind .. => "ConfigurationKind"
  | workersUnavailable .. => "ThreadPool"
  | unreadable => "Io"
  | parse .. => "Parse"
  | malformedSettings => "Yaml"
  | serialization => "Serialization"
  | capacityOverflow => "CapacityOverflow"
  | outOfMemory .. => "OutOfMemory"

def message : EngineError → String
  | invalidConfiguration key text => "Invalid configuration value for '" ++ key ++ "': " ++ text
  | aggregationMismatch detail => "Conflicting relationship property aggregations: " ++ detail
  | dimensionMismatch key expected actual =>
      "All property arrays for relationship property '" ++ key ++
        "' should have the same number of dimensions: expected " ++ toString expected ++
        ", got " ++ toString actual
  | unmappedNodes ids =>
      "The following node ids are not present in the node id space: " ++
        joinItems (ids.map toString)
  | invalidPropertyValue key value =>
      "Invalid value " ++ value ++ " for relationship property '" ++ key ++ "'"
  | nodeOutOfRange node nodeCount =>
      "Node id " ++ toString node ++ " is out of range for a graph with " ++
        toString nodeCount ++ " nodes"
  | propertyNotFound key => "Relationship property '" ++ key ++ "' does not exist"
  | allocationFailed bytes => "Failed to allocate " ++ toString bytes ++ " bytes"
  | terminated => "The execution has been terminated."
  | builderClosed => "The relationships builder has already been closed"
  | alreadyBuilt => "The relationships builder has already been built"
  | unknownAlgorithm name => "Unknown algorithm '" ++ name ++ "'"
  | configurationKind algorithm config =>
      "Algorithm '" ++ algorithm ++ "' cannot run with a '" ++ config ++ "' configuration"
  | workersUnavailable reason => "Failed to build worker pool: " ++ reason
  | unreadable => "IO error:"
  | parse line text => "Parse error at line " ++ toString line ++ ": " ++ text
  | malformedSettings => "Configuration error:"
  | serialization => "Serialization error:"
  | capacityOverflow => "capacity overflow"
  | outOfMemory bytes => "memory allocation of " ++ toString bytes ++ " bytes failed"

def isTerminated : EngineError → Bool
  | terminated => true
  | _ => false

def isConfiguration : EngineError → Bool
  | invalidConfiguration .. | aggregationMismatch .. | configurationKind .. => true
  | _ => false

def isFatal : EngineError → Bool
  | capacityOverflow | outOfMemory .. => true
  | _ => false

def notPositive (key : String) : EngineError := invalidConfiguration key "must be at least 1"

end EngineError

def requirePositive (key : String) (value : Nat) : Except EngineError Unit :=
  if value < 1 then .error (.notPositive key) else .ok ()

theorem requirePositivePasses (key : String) {value : Nat} (some : 0 < value) :
    requirePositive key value = .ok () :=
  if_neg (Nat.not_lt.mpr some)

theorem requirePositiveOk {key : String} {value : Nat} {done : Unit}
    (ok : requirePositive key value = .ok done) : 0 < value := by
  unfold requirePositive at ok
  split at ok
  · cases ok
  · omega

end CommunityGraph
