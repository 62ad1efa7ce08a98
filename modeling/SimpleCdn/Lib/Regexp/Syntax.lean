import SimpleCdn.Lib.Regexp.Pieces

/-!
# Regular expressions

The expression of a text, as it is written: groups, alternatives and repetitions stand where the
text has them.  The limits on the size and the depth of an expression are left out.

Which groups capture decides nothing here but the mark of a group, so texts whose pieces differ in
that alone have expressions that differ in that alone.
-/

namespace SimpleCdn.Regexp

inductive Expr
  | empty
  | literal (code : ℕ) (fold : Bool)
  | set (negated : Bool) (items : List ClassItem) (fold : Bool)
  | any (newline : Bool)
  | assertion (assertion : Assertion)
  | group (capturing : Bool) (e : Expr)
  | concat (e f : Expr)
  | alternate (e f : Expr)
  | repeated (op : RepeatOp) (isLazy : Bool) (e : Expr)
  deriving DecidableEq

/-! ### Building an expression -/

structure Flags where
  fold : Bool
  multiLine : Bool
  dotNewline : Bool
  ungreedy : Bool
  deriving DecidableEq

def Flags.set (flags : Flags) : Flag × Bool → Flags
  | (.fold, on) => { flags with fold := on }
  | (.multiLine, on) => { flags with multiLine := on }
  | (.dotNewline, on) => { flags with dotNewline := on }
  | (.ungreedy, on) => { flags with ungreedy := on }

/-- What has been read of a group: its finished alternatives and the items of the one that is being
read, both with the latest first. -/
structure Level where
  finished : List Expr
  items : List Expr
  deriving DecidableEq

/-- A group that is open, with what was read before it. -/
structure Frame where
  capturing : Bool
  flags : Flags
  level : Level
  deriving DecidableEq

structure Builder where
  flags : Flags
  level : Level
  frames : List Frame
  afterRepeat : Bool
  deriving DecidableEq

def concatAll : List Expr → Expr
  | [] => .empty
  | [e] => e
  | e :: es => .concat e (concatAll es)

def alternateAll (e : Expr) : List Expr → Expr
  | [] => e
  | f :: es => .alternate e (alternateAll f es)

def Level.branch (level : Level) : Expr :=
  concatAll level.items.reverse

/-- The alternatives in order, the one that is being read last. -/
def Level.branches (level : Level) : List Expr :=
  level.finished.reverse ++ [level.branch]

def alternatives : List Expr → Expr
  | [] => .empty
  | e :: es => alternateAll e es

def Level.expr (level : Level) : Expr :=
  alternatives level.branches

def Level.push (level : Level) (e : Expr) : Level :=
  { level with items := e :: level.items }

def Builder.push (b : Builder) (e : Expr) : Builder :=
  { b with level := b.level.push e, afterRepeat := false }

def Builder.openGroup (b : Builder) (capturing : Bool) : Builder :=
  { b with
    level := ⟨[], []⟩
    frames := ⟨capturing, b.flags, b.level⟩ :: b.frames
    afterRepeat := false }

def ClassItem.known (known : List Char → Bool) : ClassItem → Bool
  | .property name _ => known name
  | _ => true

/-- `known` are the names that `\p` may have. -/
def Builder.step (known : List Char → Bool) (b : Builder) : Piece → Option Builder
  | .literals codes =>
    some { codes.foldl (fun b code => b.push (.literal code b.flags.fold)) b with
      afterRepeat := false }
  | .set negated items =>
    if items.all (ClassItem.known known) then some (b.push (.set negated items b.flags.fold))
    else none
  | .dot => some (b.push (.any b.flags.dotNewline))
  | .caret => some (b.push (.assertion (if b.flags.multiLine then .beginLine else .beginText)))
  | .dollar => some (b.push (.assertion (if b.flags.multiLine then .endLine else .endText)))
  | .assertion a => some (b.push (.assertion a))
  | .openGroup capturing => some (b.openGroup capturing)
  | .flags changes opens =>
    let flags := changes.foldl Flags.set b.flags
    if opens then some { b.openGroup false with flags := flags }
    else some { b with flags := flags, afterRepeat := false }
  | .bar =>
    some { b with level := ⟨b.level.branch :: b.level.finished, []⟩, afterRepeat := false }
  | .closeGroup =>
    match b.frames with
    | [] => none
    | frame :: frames => some
      { flags := frame.flags
        level := frame.level.push (.group frame.capturing b.level.expr)
        frames := frames
        afterRepeat := false }
  | .repeated op isLazy =>
    match b.level.items with
    | [] => none
    | e :: items =>
      if b.afterRepeat then none
      else some { b with
        level := { b.level with items := .repeated op (isLazy != b.flags.ungreedy) e :: items }
        afterRepeat := true }

def Builder.initial : Builder where
  flags := ⟨false, false, false, false⟩
  level := ⟨[], []⟩
  frames := []
  afterRepeat := false

def Builder.finish (b : Builder) : Option Expr :=
  match b.frames with
  | [] => some b.level.expr
  | _ :: _ => none

def Builder.steps (known : List Char → Bool) : Builder → List Piece → Option Builder
  | b, [] => some b
  | b, piece :: pieces => (b.step known piece).bind fun b => b.steps known pieces

/-! ### Reading a text -/

/-- The pieces of a text, each with its own text. -/
def piecesFrom : ℕ → List Char → Option (List (List Char × Piece))
  | _, [] => some []
  | 0, _ :: _ => none
  | fuel + 1, c :: cs =>
    match readPiece.run (c :: cs) with
    | none => none
    | some (piece, rest) => (piecesFrom fuel rest).map
      (((c :: cs).take ((c :: cs).length - rest.length), piece) :: ·)

def pieces (cs : List Char) : Option (List (List Char × Piece)) :=
  piecesFrom cs.length cs

def parse (known : List Char → Bool) (cs : List Char) : Option Expr := do
  let pieces ← pieces cs
  let b ← Builder.initial.steps known (pieces.map Prod.snd)
  b.finish

theorem readPiece_suffix {c : Char} {cs rest : List Char} {piece : Piece}
    (h : readPiece.run (c :: cs) = some (piece, rest)) : rest <:+ cs := by
  have hread : ∃ read : Char → Scan Piece, readPiece = Scan.next >>= read := ⟨_, rfl⟩
  obtain ⟨read, hread⟩ := hread
  rw [hread] at h
  exact (read c).suffix h

/-- As much fuel as there are characters is enough. -/
theorem piecesFrom_eq {fuel : ℕ} {cs : List Char} (h : cs.length ≤ fuel) :
    piecesFrom fuel cs = pieces cs := by
  suffices hall : ∀ n cs, cs.length ≤ n → ∀ fuel, cs.length ≤ fuel →
      piecesFrom fuel cs = piecesFrom n cs from hall cs.length cs le_rfl fuel h
  intro n
  induction n with
  | zero =>
    intro cs hcs fuel _
    obtain rfl := List.eq_nil_of_length_eq_zero (Nat.le_zero.mp hcs)
    rw [piecesFrom, piecesFrom]
  | succ n ih =>
    intro cs hcs fuel hfuel
    rcases cs with _ | ⟨c, cs⟩
    · rw [piecesFrom, piecesFrom]
    · obtain ⟨fuel, rfl⟩ : ∃ m, fuel = m + 1 :=
        Nat.exists_eq_add_one_of_ne_zero (by rintro rfl; exact absurd hfuel (Nat.not_succ_le_zero _))
      rw [List.length_cons] at hcs hfuel
      rw [piecesFrom, piecesFrom]
      rcases hread : readPiece.run (c :: cs) with _ | ⟨piece, rest⟩
      · rfl
      · have hrest := (readPiece_suffix hread).length_le
        dsimp only
        rw [ih rest (by omega) fuel (by omega)]

theorem pieces_cons {c : Char} {cs : List Char} {piece : Piece} {rest : List Char}
    (h : readPiece.run (c :: cs) = some (piece, rest)) :
    pieces (c :: cs) = (pieces rest).map
      (((c :: cs).take ((c :: cs).length - rest.length), piece) :: ·) := by
  have hrest := (readPiece_suffix h).length_le
  rw [pieces, List.length_cons, piecesFrom, h]
  dsimp only
  rw [piecesFrom_eq hrest]
  rfl

/-- The first piece of a text, and the text that is left. -/
theorem pieces_eq_cons {cs text : List Char} {piece : Piece} {ps : List (List Char × Piece)}
    (h : pieces cs = some ((text, piece) :: ps)) :
    ∃ rest, cs = text ++ rest ∧ text ≠ [] ∧ readPiece.run cs = some (piece, rest) ∧
      pieces rest = some ps := by
  rcases cs with _ | ⟨c, cs⟩
  · exact absurd h nofun
  · rcases hread : readPiece.run (c :: cs) with _ | ⟨first, rest⟩
    · rw [pieces, List.length_cons, piecesFrom, hread] at h
      exact absurd h nofun
    · rw [pieces_cons hread, Option.map_eq_some_iff] at h
      obtain ⟨others, hothers, heq⟩ := h
      obtain ⟨hfirst, rfl⟩ := List.cons.inj heq
      obtain ⟨rfl, rfl⟩ := Prod.mk.inj hfirst
      obtain ⟨front, rfl⟩ := readPiece_suffix hread
      refine ⟨rest, ?_, ?_, rfl, hothers⟩
      · rw [← List.cons_append, List.length_append, Nat.add_sub_cancel, List.take_left']
        rfl
      · rw [← List.cons_append, List.length_append, Nat.add_sub_cancel, List.take_left' rfl]
        exact List.cons_ne_nil _ _

theorem pieces_of_read {text rest : List Char} {piece : Piece} (htext : text ≠ [])
    (h : readPiece.run (text ++ rest) = some (piece, rest)) :
    pieces (text ++ rest) = (pieces rest).map ((text, piece) :: ·) := by
  rcases text with _ | ⟨c, text⟩
  · exact absurd rfl htext
  · rw [List.cons_append] at h ⊢
    rw [pieces_cons h, ← List.cons_append, List.length_append, Nat.add_sub_cancel,
      List.take_left' rfl]

/-- The pieces are the whole text. -/
theorem pieces_flatten {cs : List Char} {ps : List (List Char × Piece)} (h : pieces cs = some ps) :
    (ps.map Prod.fst).flatten = cs := by
  induction ps generalizing cs with
  | nil =>
    rcases cs with _ | ⟨c, cs⟩
    · rfl
    · rcases hread : readPiece.run (c :: cs) with _ | ⟨first, rest⟩
      · rw [pieces, List.length_cons, piecesFrom, hread] at h
        exact absurd h nofun
      · rw [pieces_cons hread, Option.map_eq_some_iff] at h
        obtain ⟨_, _, heq⟩ := h
        exact absurd heq nofun
  | cons p ps ih =>
    obtain ⟨rest, rfl, -, -, hrest⟩ := pieces_eq_cons h
    rw [List.map_cons, List.flatten_cons, ih hrest]

/-! ### Groups that capture -/

/-- The expression in which every group captures. -/
def Expr.capture : Expr → Expr
  | .group _ e => .group true e.capture
  | .concat e f => .concat e.capture f.capture
  | .alternate e f => .alternate e.capture f.capture
  | .repeated op isLazy e => .repeated op isLazy e.capture
  | e => e

def Level.capture (level : Level) : Level where
  finished := level.finished.map Expr.capture
  items := level.items.map Expr.capture

def Frame.capture (frame : Frame) : Frame where
  capturing := true
  flags := frame.flags
  level := frame.level.capture

def Builder.capture (b : Builder) : Builder where
  flags := b.flags
  level := b.level.capture
  frames := b.frames.map Frame.capture
  afterRepeat := b.afterRepeat

def Piece.capture : Piece → Piece
  | .openGroup _ => .openGroup true
  | piece => piece

@[simp] theorem Expr.capture_capture (e : Expr) : e.capture.capture = e.capture := by
  induction e with
  | group _ _ ih => rw [capture, capture, ih]
  | concat _ _ ihe ihf => rw [capture, capture, ihe, ihf]
  | alternate _ _ ihe ihf => rw [capture, capture, ihe, ihf]
  | repeated _ _ _ ih => rw [capture, capture, ih]
  | _ => rfl

@[simp] theorem Level.capture_capture (level : Level) : level.capture.capture = level.capture := by
  simp [capture]

@[simp] theorem Frame.capture_capture (frame : Frame) : frame.capture.capture = frame.capture := by
  simp [capture]

@[simp] theorem Builder.capture_capture (b : Builder) : b.capture.capture = b.capture := by
  simp [capture]

theorem concatAll_capture (es : List Expr) :
    concatAll (es.map Expr.capture) = (concatAll es).capture := by
  induction es with
  | nil => rfl
  | cons e es ih =>
    rcases es with _ | ⟨f, es⟩
    · rfl
    · exact congrArg (Expr.concat e.capture) ih

theorem alternateAll_capture (e : Expr) (es : List Expr) :
    alternateAll e.capture (es.map Expr.capture) = (alternateAll e es).capture := by
  induction es generalizing e with
  | nil => rfl
  | cons f es ih => exact congrArg (Expr.alternate e.capture) (ih f)

theorem Level.branch_capture (level : Level) : level.capture.branch = level.branch.capture := by
  rw [branch, branch, capture, ← List.map_reverse, concatAll_capture]

theorem Level.expr_capture (level : Level) : level.capture.expr = level.expr.capture := by
  have hbranches : level.capture.branches = level.branches.map Expr.capture := by
    rw [branches, branches, branch_capture, capture, List.map_append, List.map_reverse]
    rfl
  rw [expr, expr, hbranches]
  rcases level.branches with _ | ⟨e, es⟩
  · rfl
  · exact alternateAll_capture e es

theorem Builder.push_capture (b : Builder) (e : Expr) :
    (b.push e).capture = b.capture.push e.capture := rfl

theorem Builder.push_congr (b : Builder) (e : Expr) :
    (b.capture.push e).capture = (b.push e).capture := by
  rw [push_capture, push_capture, capture_capture]

theorem Builder.pushLiterals_capture (b : Builder) (codes : List ℕ) :
    (codes.foldl (fun b code => b.push (.literal code b.flags.fold)) b).capture =
      codes.foldl (fun b code => b.push (.literal code b.flags.fold)) b.capture := by
  induction codes generalizing b with
  | nil => rfl
  | cons code codes ih => exact ih (b.push (.literal code b.flags.fold))

/-- Marking the groups first makes the same step. -/
theorem Builder.step_capture (known : List Char → Bool) (b : Builder) (piece : Piece) :
    (b.capture.step known piece.capture).map Builder.capture =
      (b.step known piece).map Builder.capture := by
  cases piece with
  | literals codes =>
    have hliterals := b.pushLiterals_capture codes
    simp only [step, Piece.capture, Option.map_some, Option.some_inj]
    rw [← hliterals]
    simp [capture]
  | set negated items =>
    show (step known b.capture (.set negated items)).map capture = _
    rw [step, step]
    split
    · exact congrArg some (b.push_congr _)
    · rfl
  | openGroup capturing =>
    simp [step, Piece.capture, openGroup, capture, Level.capture, Frame.capture]
  | flags changes opens =>
    rcases opens with _ | _
    · simp [step, Piece.capture, capture]
    · simp [step, Piece.capture, openGroup, capture, Level.capture, Frame.capture]
  | bar =>
    have hbranch := b.level.branch_capture
    simp only [step, Piece.capture, Option.map_some, Option.some_inj]
    rw [show b.capture.level = b.level.capture from rfl, hbranch]
    simp [capture, Level.capture]
  | closeGroup =>
    rcases b with ⟨flags, level, _ | ⟨frame, frames⟩, afterRepeat⟩
    · rfl
    · have hexpr := level.expr_capture
      simp only [step, Piece.capture, capture, List.map_cons, Option.map_some, Option.some_inj]
      rw [hexpr]
      simp [Level.push, Level.capture, Frame.capture, Expr.capture]
  | repeated op isLazy =>
    rcases b with ⟨flags, ⟨finished, _ | ⟨e, items⟩⟩, frames, afterRepeat⟩
    · rfl
    · rcases afterRepeat with _ | _
      · simp [step, Piece.capture, capture, Level.capture, Expr.capture]
      · rfl
  | _ => exact congrArg some (b.push_congr _)

theorem Builder.step_congr (known : List Char → Bool) {b b' : Builder} {piece piece' : Piece}
    (hb : b.capture = b'.capture) (hpiece : piece.capture = piece'.capture) :
    (b.step known piece).map Builder.capture = (b'.step known piece').map Builder.capture := by
  rw [← step_capture known b, ← step_capture known b', hb, hpiece]

theorem Builder.steps_congr (known : List Char → Bool) {b b' : Builder} {ps ps' : List Piece}
    (hb : b.capture = b'.capture) (hps : ps.map Piece.capture = ps'.map Piece.capture) :
    (b.steps known ps).map Builder.capture = (b'.steps known ps').map Builder.capture := by
  induction ps generalizing b b' ps' with
  | nil =>
    obtain rfl := List.map_eq_nil_iff.mp hps.symm
    exact congrArg some hb
  | cons piece ps ih =>
    rcases ps' with _ | ⟨piece', ps'⟩
    · exact absurd hps nofun
    · obtain ⟨hpiece, hps⟩ := List.cons.inj hps
      have hstep := step_congr known hb hpiece
      rw [steps, steps]
      rcases hleft : b.step known piece with _ | c
      · rw [hleft, Option.map_none, eq_comm, Option.map_eq_none_iff] at hstep
        rw [hstep]
        rfl
      · rw [hleft, Option.map_some, eq_comm, Option.map_eq_some_iff] at hstep
        obtain ⟨c', hright, hc⟩ := hstep
        rw [hright]
        exact ih hc.symm hps

theorem Builder.finish_capture (b : Builder) :
    b.capture.finish = b.finish.map Expr.capture := by
  rcases b with ⟨flags, level, _ | ⟨frame, frames⟩, afterRepeat⟩
  · exact congrArg some level.expr_capture
  · rfl

/-- Texts whose pieces differ in what captures have expressions that differ in what captures. -/
theorem parse_congr (known : List Char → Bool) {cs cs' : List Char}
    {ps ps' : List (List Char × Piece)} (hcs : pieces cs = some ps) (hcs' : pieces cs' = some ps')
    (hps : (ps.map Prod.snd).map Piece.capture = (ps'.map Prod.snd).map Piece.capture) :
    (parse known cs).map Expr.capture = (parse known cs').map Expr.capture := by
  have hsteps := Builder.steps_congr known (b := Builder.initial) rfl hps
  simp only [parse, hcs, hcs', Option.bind_eq_bind, Option.bind_some]
  rcases hleft : Builder.initial.steps known (ps.map Prod.snd) with _ | c
  · rw [hleft, Option.map_none, eq_comm, Option.map_eq_none_iff] at hsteps
    rw [hsteps]
  · rw [hleft, Option.map_some, eq_comm, Option.map_eq_some_iff] at hsteps
    obtain ⟨c', hright, hc⟩ := hsteps
    rw [hright, Option.bind_some, Option.bind_some, ← Builder.finish_capture,
      ← Builder.finish_capture, hc]

end SimpleCdn.Regexp
