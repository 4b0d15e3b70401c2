import CommunityGraph.Builder
import CommunityGraph.Datum

/-! Built relationships as data. How the lists of all nodes are written is left to the caller, since
there may be very many of them. -/
namespace CommunityGraph

abbrev ListWriter := List (List Datum) → Datum

def AdjacencyList.targetData (write : ListWriter) (a : AdjacencyList) : Datum :=
  write ((List.range a.nodeCount).map fun node => (a.targets node).map .nat)

def PropertyStorage.valueData (write : ListWriter) (s : PropertyStorage Float) (property : Nat) :
    Datum :=
  write ((List.range s.degrees.size).map fun node => (s.values node property).map .double)

def PropertyStorage.data (write : ListWriter) (s : PropertyStorage Float) : Datum :=
  .list ((List.range s.propertyCount).map (s.valueData write))

def AdjacencyList.entries (write : ListWriter) (a : AdjacencyList) : List (String × Datum) :=
  [("nodes", .nat a.nodeCount), ("relationships", .nat a.relationshipCount),
    ("bytes", .nat a.byteCount), ("targets", a.targetData write)]

def CompressedAdjacency.datum (write : ListWriter) (c : CompressedAdjacency Float) : Datum :=
  .fields (c.list.entries write ++ [("degrees", .nats c.list.degrees.toList),
    ("properties", .option (PropertyStorage.data write) c.properties)])

def Topology.datum (write : ListWriter) (t : Topology) : Datum :=
  .fields (t.adjacency.entries write ++ [("orientation", .text t.orientation.name),
    ("multigraph", .flag t.isMultigraph)])

def RelationshipProperty.datum (write : ListWriter) (p : RelationshipProperty Float) : Datum :=
  .fields [("key", .text p.key), ("aggregation", .text p.aggregation.name),
    ("default", .double p.defaultValue), ("values", p.storage.valueData write p.index)]

def Relationships.datum (write : ListWriter) (r : Relationships Float) : Datum :=
  .fields [("topology", r.topology.datum write),
    ("properties", .list (r.properties.map (RelationshipProperty.datum write))),
    ("inverse", .option (Topology.datum write) r.inverseTopology),
    ("inverse_properties", .list (r.inverseProperties.map (RelationshipProperty.datum write)))]

end CommunityGraph
