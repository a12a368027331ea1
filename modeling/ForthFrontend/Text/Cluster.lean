import ForthFrontend.Text.ColumnTable
import ForthFrontend.Text.Space

/-!
# Characters as a reader sees them

What a reader sees as one character can be several scalar values: a letter with its marks, the parts
of a Hangul syllable, two regional indicators that make a flag, pictographs connected by joiners. A
text is split into such clusters by the classes of neighbouring values.

## Main definitions

* `Text.ClusterClass`, `Text.clusterClass`: the classes of scalar values.
* `Text.clusters`: the clusters of a text.
-/

namespace ForthFrontend.Text

/-- The class of a scalar value for the splitting into clusters. -/
inductive ClusterClass where
  | carriageReturn
  | lineFeed
  | control
  | extend
  | joiner
  | prepend
  | spacing
  | hangulL
  | hangulV
  | hangulT
  | hangulLV
  | hangulLVT
  | regional
  | pictograph
  | other
  deriving Repr, DecidableEq, Inhabited

/-- The class of a scalar value. -/
def clusterClass (v : Nat) : ClusterClass :=
  if v == 0x0D then .carriageReturn
  else if v == 0x0A then .lineFeed
  else if v < 0x20 then .control
  else if v < 0x7F then .other
  else if v == 0x200D then .joiner
  else if 0x1F1E6 ≤ v && v ≤ 0x1F1FF then .regional
  else if 0xAC00 ≤ v && v ≤ 0xD7A3 then if (v - 0xAC00) % 28 == 0 then .hangulLV else .hangulLVT
  else if (0x1100 ≤ v && v ≤ 0x115F) || (0xA960 ≤ v && v ≤ 0xA97C) then .hangulL
  else if (0x1160 ≤ v && v ≤ 0x11A7) || (0xD7B0 ≤ v && v ≤ 0xD7C6) then .hangulV
  else if (0x11A8 ≤ v && v ≤ 0x11FF) || (0xD7CB ≤ v && v ≤ 0xD7FB) then .hangulT
  else if Bytes.inRanges clusterExtend v then .extend
  else if Bytes.inRanges clusterSpacing v then .spacing
  else if Bytes.inRanges clusterControl v then .control
  else if Bytes.inRanges clusterPrepend v then .prepend
  else if Bytes.inRanges pictographs v then .pictograph
  else .other

/-- What is known about the values of the cluster so far. -/
structure ClusterState where
  last : ClusterClass
  /-- Do the values end in a pictograph and extending marks? -/
  pictured : Bool := false
  /-- Do the values end in a pictograph, extending marks and a joiner? -/
  joined : Bool := false
  /-- Do the values end in an odd number of regional indicators? -/
  oddRegional : Bool := false
  deriving Repr, DecidableEq, Inhabited

namespace ClusterState

/-- The state after the first value of a cluster. -/
def first (c : ClusterClass) : ClusterState where
  last := c
  pictured := c == .pictograph
  oddRegional := c == .regional

/-- The state after one more value of the cluster. -/
def next (s : ClusterState) (c : ClusterClass) : ClusterState where
  last := c
  pictured := c == .pictograph || (c == .extend && s.pictured)
  joined := c == .joiner && s.pictured
  oddRegional := c == .regional && !s.oddRegional

/-- Is the class a control? -/
def isControl (c : ClusterClass) : Bool :=
  c == .carriageReturn || c == .lineFeed || c == .control

/-- Do two values belong to one Hangul syllable? -/
def isHangulPair : ClusterClass → ClusterClass → Bool
  | .hangulL, c => c == .hangulL || c == .hangulV || c == .hangulLV || c == .hangulLVT
  | .hangulLV, c | .hangulV, c => c == .hangulV || c == .hangulT
  | .hangulLVT, c | .hangulT, c => c == .hangulT
  | _, _ => false

/-- Does a value of class `c` go on with the cluster? -/
def goesOn (s : ClusterState) (c : ClusterClass) : Bool :=
  if s.last == .carriageReturn && c == .lineFeed then true
  else if isControl s.last || isControl c then false
  else
    isHangulPair s.last c || c == .extend || c == .joiner || c == .spacing || s.last == .prepend
      || (s.joined && c == .pictograph) || (s.oddRegional && c == .regional)

end ClusterState

/-- The rest of a cluster, latest value first, and the values after it. -/
def clusterRest (s : ClusterState) (found : List Nat) : List Nat → List Nat × List Nat
  | [] => (found, [])
  | v :: rest =>
    if s.goesOn (clusterClass v) then clusterRest (s.next (clusterClass v)) (v :: found) rest
    else (found, v :: rest)

/-- The values after a cluster are no more than the values after its first one. -/
theorem length_clusterRest_le (s : ClusterState) (found : List Nat) (vs : List Nat) :
    (clusterRest s found vs).2.length ≤ vs.length := by
  induction vs generalizing s found with
  | nil => simp [clusterRest]
  | cons v rest ih =>
    unfold clusterRest
    split
    · exact Nat.le_succ_of_le (ih _ _)
    · exact Nat.le_refl _

/-- The first cluster of a text that begins with `v`, and the values after it. -/
def firstCluster (v : Nat) (rest : List Nat) : List Nat × List Nat :=
  let split := clusterRest (.first (clusterClass v)) [v] rest
  (split.1.reverse, split.2)

/-- The clusters of a text behind those found so far, latest first. -/
def clustersInto (found : List (List Nat)) : List Nat → List (List Nat)
  | [] => found.reverse
  | v :: rest => clustersInto ((firstCluster v rest).1 :: found) (firstCluster v rest).2
termination_by vs => vs.length
decreasing_by exact Nat.lt_succ_of_le (length_clusterRest_le _ _ _)

/-- The clusters of a text. -/
def clusters (vs : List Nat) : List (List Nat) :=
  clustersInto [] vs

end ForthFrontend.Text
