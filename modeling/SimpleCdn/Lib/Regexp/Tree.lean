import Mathlib.Data.List.Sort
import SimpleCdn.Lib.Regexp.Matching

/-!
# The tree of a regular expression

What `syntax.Parse` makes of an expression.  The parser joins neighbouring characters to strings,
makes one class of alternatives that are single characters, and takes common beginnings out of
alternatives.  Strings are compared with their case folding, not with other flags.
-/

namespace SimpleCdn.Regexp

/-- `Regexp` -/
inductive Node
  | emptyMatch
  | literal (codes : List ℕ) (fold : Bool)
  | charClass (ranges : List (ℕ × ℕ))
  | anyCharNotNL
  | anyChar
  | assertion (assertion : Assertion)
  | capture (sub : Node)
  | repeated (op : RepeatOp) (isLazy : Bool) (sub : Node)
  | concat (subs : List Node)
  | alternate (subs : List Node)

/-! ### Classes -/

/-- One pass of the loop of `cleanClass`, over ranges in order. -/
def joinRange : List (ℕ × ℕ) → ℕ × ℕ → List (ℕ × ℕ)
  | (low, high) :: ranges, (low', high') =>
    if low' ≤ high + 1 then (low, max high high') :: ranges
    else (low', high') :: (low, high) :: ranges
  | [], range => [range]

/-- `cleanClass` -/
def cleanClass (ranges : List (ℕ × ℕ)) : List (ℕ × ℕ) :=
  ((ranges.insertionSort fun r s => r.1 < s.1 ∨ (r.1 = s.1 ∧ s.2 ≤ r.2)).foldl joinRange
    []).reverse

/-- `negateClass`, of ranges in order; `next` is the first code point not yet looked at. -/
def negateFrom : ℕ → List (ℕ × ℕ) → List (ℕ × ℕ)
  | next, [] => if next ≤ maxRune then [(next, maxRune)] else []
  | next, (low, high) :: ranges =>
    if next < low then (next, low - 1) :: negateFrom (high + 1) ranges
    else negateFrom (high + 1) ranges

/-- `appendFoldedRange` -/
def foldRanges (tables : Tables) (fold : Bool) (ranges : List (ℕ × ℕ)) : List (ℕ × ℕ) :=
  if fold then
    cleanClass (ranges.flatMap fun (low, high) =>
      (List.range' low (high + 1 - low)).flatMap fun code =>
        (tables.orbit code).map fun other => (other, other))
  else cleanClass ranges

def ClassItem.ranges (tables : Tables) (fold : Bool) : ClassItem → List (ℕ × ℕ)
  | .range low high => foldRanges tables fold [(low, high)]
  | .group ranges negated =>
    if negated then negateFrom 0 (foldRanges tables fold ranges)
    else foldRanges tables fold ranges
  | .property name negated =>
    let ranges := foldRanges tables fold ((tables.property name).getD [])
    if negated then negateFrom 0 ranges else ranges

def setRanges (tables : Tables) (negated : Bool) (items : List ClassItem) (fold : Bool) :
    List (ℕ × ℕ) :=
  let ranges := cleanClass (items.flatMap (ClassItem.ranges tables fold))
  if negated then negateFrom 0 ranges else ranges

namespace Node

/-- What `push` makes of a class of one character, or of its two cases. -/
def single (tables : Tables) : Node → Node
  | .charClass [(low, high)] =>
    if low = high then .literal [low] false
    else if low + 1 = high ∧ tables.orbit low = [low, high] then .literal [low] true
    else .charClass [(low, high)]
  | .charClass [(low, low'), (high, high')] =>
    if low = low' ∧ high = high' ∧ tables.orbit low = [low, high] then .literal [low] true
    else .charClass [(low, low'), (high, high')]
  | node => node

/-- `cleanAlt` -/
def cleanAlt : Node → Node
  | .charClass ranges =>
    let ranges := cleanClass ranges
    if ranges = [(0, maxRune)] then .anyChar
    else if ranges = [(0, 9), (11, maxRune)] then .anyCharNotNL
    else .charClass ranges
  | node => node

/-- `isCharClass` -/
def isCharClass : Node → Bool
  | .literal [_] _ => true
  | .charClass _ => true
  | .anyCharNotNL => true
  | .anyChar => true
  | _ => false

/-- The order of the operators of classes. -/
def rank : Node → ℕ
  | .literal _ _ => 0
  | .charClass _ => 1
  | .anyCharNotNL => 2
  | _ => 3

/-- The ranges of a class, or of a character; `appendLiteral`. -/
def classRanges (tables : Tables) : Node → List (ℕ × ℕ)
  | .literal codes fold => foldRanges tables fold (codes.map fun code => (code, code))
  | .charClass ranges => ranges
  | _ => []

/-- `matchRune`, of a class and the newline. -/
def matchesNewline (tables : Tables) : Node → Bool
  | .anyChar => true
  | .anyCharNotNL => false
  | node => inRanges (node.classRanges tables) 10

/-- `mergeCharClass`, into the one of the higher rank. -/
def mergeCharClass (tables : Tables) (dst src : Node) : Node :=
  match dst with
  | .anyCharNotNL => if src.matchesNewline tables then .anyChar else .anyCharNotNL
  | .charClass ranges => .charClass (ranges ++ src.classRanges tables)
  | .literal codes fold =>
    match src with
    | .literal codes' fold' =>
      if codes = codes' ∧ fold = fold' then .literal codes fold
      else .charClass (dst.classRanges tables ++ src.classRanges tables)
    | _ => dst
  | _ => dst

/-- Two classes, in either order. -/
def mergeClasses (tables : Tables) (first second : Node) : Node :=
  if second.rank ≤ first.rank then mergeCharClass tables first second
  else mergeCharClass tables second first

/-! ### Concatenations -/

/-- `maybeConcat`, of all neighbours. -/
def joinLiteral (node : Node) (nodes : List Node) : List Node :=
  match node, nodes with
  | .literal codes fold, .literal codes' fold' :: rest =>
    if fold = fold' then .literal (codes ++ codes') fold :: rest else node :: nodes
  | _, _ => node :: nodes

def joinLiterals (nodes : List Node) : List Node :=
  nodes.foldr joinLiteral []

/-- The operands of a concatenation. -/
def concatSubs : Node → List Node
  | .concat subs => subs
  | node => [node]

/-- `concat` -/
def concatNode (nodes : List Node) : Node :=
  match joinLiterals nodes with
  | [] => .emptyMatch
  | [node] => node
  | nodes => .concat (nodes.flatMap concatSubs)

/-! ### Common beginnings -/

/-- `leadingString` -/
def leadingString : Node → List ℕ × Bool
  | .literal codes fold => (codes, fold)
  | .concat (.literal codes fold :: _) => (codes, fold)
  | _ => ([], false)

def dropString (n : ℕ) : Node → Node
  | .literal codes fold => if codes.drop n = [] then .emptyMatch else .literal (codes.drop n) fold
  | node => node

def isEmptyMatch : Node → Bool
  | .emptyMatch => true
  | _ => false

/-- What is left of a concatenation. -/
def concatRest : List Node → Node
  | [] => .emptyMatch
  | [node] => node
  | nodes => .concat nodes

/-- `removeLeadingString` -/
def removeLeadingString (n : ℕ) : Node → Node
  | .concat (first :: rest) =>
    if (dropString n first).isEmptyMatch then concatRest rest
    else .concat (dropString n first :: rest)
  | node => dropString n node

/-- `leadingRegexp` -/
def leadingRegexp : Node → Option Node
  | .emptyMatch => none
  | .concat (.emptyMatch :: _) => none
  | .concat (node :: _) => some node
  | node => some node

/-- `removeLeadingRegexp` -/
def removeLeadingRegexp : Node → Node
  | .concat (_ :: rest) => concatRest rest
  | _ => .emptyMatch

/-- A class that `factor` takes out, or a fixed number of them. -/
def isSimplePrefix : Node → Bool
  | .repeated (.counted min (some max)) _ sub => min = max && sub.isCharClass
  | node => node.isCharClass

def sameClass : Node → Node → Bool
  | .literal codes fold, .literal codes' fold' => codes = codes' && fold = fold'
  | .charClass ranges, .charClass ranges' => ranges = ranges'
  | .anyCharNotNL, .anyCharNotNL => true
  | .anyChar, .anyChar => true
  | _, _ => false

/-- `Equal`, of what `factor` takes out. -/
def samePrefix : Node → Node → Bool
  | .repeated op isLazy sub, .repeated op' isLazy' sub' =>
    op = op' && isLazy = isLazy' && sameClass sub sub'
  | node, node' => sameClass node node'

/-! ### Alternatives -/

/-- Cuts a list into runs: `first` begins the note of a run, and `extend` says whether an element
still belongs to it. -/
def runsFrom {α β : Type} (first : α → β) (extend : β → α → Option β) :
    β → List α → List α → List (β × List α)
  | note, run, [] => [(note, run)]
  | note, run, a :: as =>
    match extend note a with
    | some note => runsFrom first extend note (run ++ [a]) as
    | none => (note, run) :: runsFrom first extend (first a) [a] as

def runs {α β : Type} (first : α → β) (extend : β → α → Option β) : List α → List (β × List α)
  | [] => []
  | a :: as => runsFrom first extend (first a) [a] as

def commonPrefix : List ℕ → List ℕ → List ℕ
  | a :: as, b :: bs => if a = b then a :: commonPrefix as bs else []
  | _, _ => []

/-- Takes a common beginning out of a run of alternatives. -/
def factorRun (collapse : List Node → Node) (front : Node) (rest : Node → Node) :
    List Node → Node
  | [node] => node
  | run => .concat [front, collapse (run.map rest)]

/-- The string that all of a run begin with. -/
def extendString : List ℕ × Bool → Node → Option (List ℕ × Bool)
  | (codes, fold), node =>
    let (codes', fold') := node.leadingString
    if fold = fold' ∧ commonPrefix codes codes' ≠ [] then some (commonPrefix codes codes', fold)
    else none

/-- Common strings. -/
def factorStrings (collapse : List Node → Node) (subs : List Node) : List Node :=
  (runs leadingString extendString subs).map fun ((codes, fold), run) =>
    factorRun collapse (.literal codes fold) (removeLeadingString codes.length) run

/-- The first operand that all of a run begin with. -/
def extendPrefix : Option Node → Node → Option (Option Node)
  | some first, node =>
    match node.leadingRegexp with
    | some other =>
      if samePrefix first other ∧ first.isSimplePrefix then some (some first) else none
    | none => none
  | none, _ => none

/-- Common first operands, when they are simple. -/
def factorPrefixes (collapse : List Node → Node) (subs : List Node) : List Node :=
  (runs leadingRegexp extendPrefix subs).map fun (first, run) =>
    factorRun collapse (first.getD .emptyMatch) removeLeadingRegexp run

/-- One class of a run of classes; the one of the highest rank takes the others in. -/
def mergeRun (tables : Tables) : List Node → Node
  | [] => .emptyMatch
  | node :: nodes => cleanAlt (nodes.foldl (mergeClasses tables) node)

def extendClass (isClass : Bool) (node : Node) : Option Bool :=
  if isClass && node.isCharClass then some true else none

/-- A run of classes becomes one; what is no class is a run of its own. -/
def classRun (tables : Tables) : List Node → Node
  | [node] => node
  | run => mergeRun tables run

def factorClasses (tables : Tables) (subs : List Node) : List Node :=
  (runs isCharClass extendClass subs).map fun p => classRun tables p.2

/-- Neighbouring empty matches. -/
def factorEmpty : List Node → List Node
  | .emptyMatch :: .emptyMatch :: nodes => factorEmpty (.emptyMatch :: nodes)
  | node :: nodes => node :: factorEmpty nodes
  | [] => []

/-- The operands of an alternation. -/
def alternateSubs : Node → List Node
  | .alternate subs => subs
  | node => [node]

/-- `collapse`, of alternatives. -/
def collapse (factor : List Node → List Node) : List Node → Node
  | [node] => node
  | nodes =>
    match factor (nodes.flatMap alternateSubs) with
    | [node] => node
    | subs => .alternate subs

/-- `factor`.  Every round below another one works on shorter alternatives. -/
def factor (tables : Tables) : ℕ → List Node → List Node
  | 0, subs => subs
  | fuel + 1, subs =>
    if subs.length < 2 then subs
    else
      factorEmpty (factorClasses tables (factorPrefixes (collapse (factor tables fuel))
        (factorStrings (collapse (factor tables fuel)) subs)))

/-- `swapVerticalBar`; the latest alternative comes first. -/
def addBranch (tables : Tables) : List Node → Node → List Node
  | [], node => [node]
  | last :: earlier, node =>
    if last.isCharClass && node.isCharClass then mergeClasses tables last node :: earlier
    else node :: cleanAlt last :: earlier

/-- `alternate` -/
def alternation (tables : Tables) (fuel : ℕ) (branches : List Node) : Node :=
  match branches.foldl (addBranch tables) [] with
  | [] => .emptyMatch
  | last :: earlier =>
    single tables (collapse (factor tables fuel) (cleanAlt last :: earlier).reverse)

end Node

/-! ### The tree -/

/-- The tree of alternatives that are given by their items. -/
def treeOf (tables : Tables) (fuel : ℕ) (branches : List (List Node)) : Node :=
  Node.alternation tables fuel (branches.map Node.concatNode)

/-- The items of an operand. -/
def itemsOf (tables : Tables) (fuel : ℕ) : List (List Node) → List Node
  | [items] => items
  | branches => [treeOf tables fuel branches]

/-- `minFoldRune` -/
def minFold (tables : Tables) (code : ℕ) : ℕ :=
  (tables.orbit code).foldl min code

/-- The alternatives of an expression, each with its items.  A group that does not capture leaves
nothing of itself. -/
def Expr.branches (tables : Tables) (fuel : ℕ) : Expr → List (List Node)
  | .empty => [[]]
  | .literal code fold => [[.literal [if fold then minFold tables code else code] fold]]
  | .set negated items fold => [[Node.single tables (.charClass (setRanges tables negated items fold))]]
  | .any newline => [[if newline then .anyChar else .anyCharNotNL]]
  | .assertion a => [[.assertion a]]
  | .group capturing e =>
    let tree := treeOf tables fuel (e.branches tables fuel)
    [[if capturing then .capture tree else tree]]
  | .concat e f =>
    [itemsOf tables fuel (e.branches tables fuel) ++ itemsOf tables fuel (f.branches tables fuel)]
  | .alternate e f => e.branches tables fuel ++ f.branches tables fuel
  | .repeated op isLazy e => [[.repeated op isLazy (treeOf tables fuel (e.branches tables fuel))]]

def Expr.tree (tables : Tables) (fuel : ℕ) (e : Expr) : Node :=
  treeOf tables fuel (e.branches tables fuel)

end SimpleCdn.Regexp
