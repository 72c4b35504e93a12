import PullSql.Text.ClusterTable
import PullSql.Text.Ranges

/-!
# Clusters

What a reader takes for one character may be several: a letter with its accents, a syllable written
in parts, a flag made of two letters, a family made of four people. `clusters` divides a text into such
clusters by the boundary rules of Unicode 17 for extended grapheme clusters. Main statement:
`flatten_clusters`, the clusters together are the text.
-/

namespace PullSql.Text

/-! ## Classes -/

/-- What a character does to the boundaries beside it. -/
inductive ClusterClass where
  | carriageReturn
  | lineFeed
  | control
  /-- A sign that belongs to the character behind it. -/
  | leader
  /-- A mark that belongs to the character before it. -/
  | mark
  /-- A mark between two consonants that makes them one. -/
  | linker
  /-- A mark that takes up room of its own. -/
  | spacing
  /-- The zero-width joiner, a mark that makes two pictographs one. -/
  | joiner
  /-- The zero-width non-joiner, a mark that keeps two consonants apart. -/
  | nonJoiner
  | consonant
  | pictograph
  /-- One of the two letters of a flag. -/
  | flagLetter
  /-- The parts of a Hangul syllable, and syllables without and with an end. -/
  | initial | medial | final | openSyllable | closedSyllable
  | other
  deriving DecidableEq, Repr

namespace ClusterClass

/-- The classes with the ranges of their characters, line ends and Hangul syllables apart. -/
def table : List (ClusterClass × List (Nat × Nat)) :=
  [(control, controlRanges), (leader, leaderRanges), (mark, markRanges), (linker, linkerRanges),
   (spacing, spacingRanges), (joiner, [(0x200D, 0x200D)]), (nonJoiner, [(0x200C, 0x200C)]),
   (consonant, consonantRanges), (pictograph, pictographRanges), (flagLetter, [(0x1F1E6, 0x1F1FF)]),
   (initial, [(0x1100, 0x115F), (0xA960, 0xA97C)]),
   (medial, [(0x1160, 0x11A7), (0xD7B0, 0xD7C6), (0x16D63, 0x16D63), (0x16D67, 0x16D6A)]),
   (final, [(0x11A8, 0x11FF), (0xD7CB, 0xD7FB)])]

/-- The class of a character. Of the Hangul syllables, which are in one run, every 28th has no end. -/
def of (c : Char) : ClusterClass :=
  let code := c.toNat
  if c = '\r' then carriageReturn
  else if c = '\n' then lineFeed
  else if 0xAC00 ≤ code ∧ code ≤ 0xD7A3 then
    if (code - 0xAC00) % 28 = 0 then openSyllable else closedSyllable
  else ((table.find? fun (_, ranges) => inRanges code ranges).map (·.1)).getD other

/-- Whether characters of the class stand apart from all others. -/
def isApart (k : ClusterClass) : Bool := k ∈ [carriageReturn, lineFeed, control]

/-- Whether characters of the class belong to the one before them. -/
def isTrailing (k : ClusterClass) : Bool := k ∈ [mark, linker, joiner, nonJoiner, spacing]

/-- Whether characters of the class may stand between a pictograph and its joiner. -/
def followsPictograph (k : ClusterClass) : Bool := k ∈ [mark, linker, nonJoiner]

/-- Whether characters of the class may stand between two linked consonants. -/
def isInConjunct (k : ClusterClass) : Bool := k ∈ [mark, linker, joiner]

/-- The classes that go on with a Hangul syllable. -/
def continuations : ClusterClass → List ClusterClass
  | initial => [initial, medial, openSyllable, closedSyllable]
  | medial | openSyllable => [medial, final]
  | final | closedSyllable => [final]
  | _ => []

end ClusterClass

/-! ## Boundaries

The cluster so far is given with its last character first. -/

open ClusterClass in
/-- Whether the cluster ends in a pictograph with its marks. -/
def endsInPictograph (cluster : List Char) : Bool :=
  (cluster.dropWhile (followsPictograph <| of ·)).head?.any (of · = pictograph)

open ClusterClass in
/-- Whether the cluster ends in a consonant with its marks, a linker among them. -/
def endsInLink (cluster : List Char) : Bool :=
  (cluster.takeWhile (isInConjunct <| of ·)).any (of · = linker) &&
    (cluster.dropWhile (isInConjunct <| of ·)).head?.any (of · = consonant)

open ClusterClass in
/-- Whether the cluster ends in a flag of which a letter is missing. -/
def endsInHalfFlag (cluster : List Char) : Bool :=
  (cluster.takeWhile (of · = flagLetter)).length % 2 = 1

/-- Whether a character goes on with the cluster before it. -/
def goesOn (last : Char) (earlier : List Char) (next : Char) : Bool :=
  let before := ClusterClass.of last
  let after := ClusterClass.of next
  if before = .carriageReturn && after = .lineFeed then true
  else if before.isApart || after.isApart then false
  else if after.isTrailing || before = .leader || after ∈ before.continuations then true
  else
    match after with
    | .consonant => endsInLink (last :: earlier)
    | .pictograph => before = .joiner && endsInPictograph earlier
    | .flagLetter => endsInHalfFlag (last :: earlier)
    | _ => false

/-! ## Division of a text -/

/-- The clusters of a text behind the first characters of a cluster. -/
def clustersBehind (last : Char) (earlier : List Char) : List Char → List (List Char)
  | [] => [(last :: earlier).reverse]
  | c :: rest =>
    if goesOn last earlier c then clustersBehind c (last :: earlier) rest
    else (last :: earlier).reverse :: clustersBehind c [] rest

/-- The clusters of a text. -/
def clusters : List Char → List (List Char)
  | [] => []
  | c :: rest => clustersBehind c [] rest

theorem flatten_clustersBehind (last : Char) (earlier text : List Char) :
    (clustersBehind last earlier text).flatten = (last :: earlier).reverse ++ text := by
  induction text generalizing last earlier with
  | nil => simp [clustersBehind]
  | cons c rest ih =>
    rw [clustersBehind]
    split
    · simp [ih]
    · simp [ih]

/-- The clusters together are the text. -/
theorem flatten_clusters (text : List Char) : (clusters text).flatten = text := by
  cases text with
  | nil => rfl
  | cons c rest => simp [clusters, flatten_clustersBehind]

end PullSql.Text
