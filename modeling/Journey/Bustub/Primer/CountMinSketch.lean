import Mathlib.Data.Multiset.AddSub
import Mathlib.Data.Multiset.Filter
import Mathlib.Data.Multiset.Count
import Mathlib.Order.Bounds.Basic
import Mathlib.Logic.Function.Basic
import Journey.Lib.Machine

/-!
# Journey.Bustub.Primer.CountMinSketch — the sketch of `primer/count_min_sketch.{h,cpp}`

The code's model works on a `World`: the sketch objects by address and the heap blocks their
`matrix_` pointers own.  A hash closure captures its seed and `this`, so a call reads `width_` of the
object it was built in.  Every access that C++ leaves undefined is a `Fault`: a null, released or
double-freed matrix, an index outside a block, a missing closure, a modulo by zero.

The abstract model `AbsWorld` keeps, for each address, the multiset the sketch has accumulated since
its last `Clear` (or the moved-from state).  `SketchRep` relates the two models.
-/

namespace Journey.Sketch

variable {K : Type}

/-! ## The code's model -/

section Model

/-- What `HashFunction(seed)` returns: a closure over the seed and `this`. -/
structure HashClosure where
  seed : ℕ
  this : ℕ
deriving DecidableEq, Repr

/-- A block `matrix_` points to: `rows` pointers to arrays of `cols` counters. -/
structure Matrix where
  rows : ℕ
  cols : ℕ
  cell : ℕ → ℕ → UInt32

structure CountMinSketch where
  width : ℕ
  depth : ℕ
  hashFunctions : List HashClosure
  matrix : Option ℕ
deriving DecidableEq, Repr

/-- What a move leaves behind. -/
def CountMinSketch.movedFrom : CountMinSketch := ⟨0, 0, [], none⟩

/-- Objects by address, blocks by pointer, the next pointer `new` hands out, and what a block holds
before it is written. -/
structure World where
  objs : ℕ → Option CountMinSketch
  heap : ℕ → Option Matrix
  brk : ℕ
  junk : ℕ → ℕ → ℕ → UInt32

inductive Fault where
  | noObject
  | liveObject
  | noHashFunction
  | moduloZero
  | nullMatrix
  | released
  | outOfRange
deriving DecidableEq, Repr

/-- What a call gives back: nothing, the exception `std::invalid_argument`, or a count. -/
inductive Out where
  | unit
  | invalidArgument
  | count (c : UInt32)
deriving DecidableEq, Repr

def World.empty (junk : ℕ → ℕ → ℕ → UInt32) : World := ⟨fun _ => none, fun _ => none, 0, junk⟩

def World.setObj (w : World) (a : ℕ) (o : Option CountMinSketch) : World :=
  { w with objs := Function.update w.objs a o }

def World.setBlock (w : World) (p : ℕ) (m : Option Matrix) : World :=
  { w with heap := Function.update w.heap p m }

def World.obj (w : World) (a : ℕ) : Except Fault CountMinSketch :=
  match w.objs a with
  | some o => .ok o
  | none => .error .noObject

/-- The pointer `matrix_`, followed. -/
def World.matrixOf (w : World) (o : CountMinSketch) : Except Fault (ℕ × Matrix) :=
  match o.matrix with
  | none => .error .nullMatrix
  | some p =>
    match w.heap p with
    | none => .error .released
    | some m => .ok (p, m)

/-- `matrix_[b][i]`. -/
def Matrix.load (m : Matrix) (b i : ℕ) : Except Fault UInt32 :=
  if b < m.rows ∧ i < m.cols then .ok (m.cell b i) else .error .outOfRange

/-- `matrix_[b][i] = v`. -/
def Matrix.store (m : Matrix) (b i : ℕ) (v : UInt32) : Except Fault Matrix :=
  if b < m.rows ∧ i < m.cols then
    .ok { m with cell := Function.update m.cell b (Function.update (m.cell b) i v) }
  else .error .outOfRange

/-- Calling a closure: `hash(item) % width_`, with `width_` read through the captured `this`. -/
def HashClosure.call (hash : ℕ → K → ℕ) (w : World) (f : HashClosure) (item : K) : Except Fault ℕ := do
  let o ← w.obj f.this
  if o.width = 0 then .error .moduloZero else .ok (hash f.seed item % o.width)

/-- `hash_functions_[i](item)`. -/
def CountMinSketch.hashValue (hash : ℕ → K → ℕ) (w : World) (o : CountMinSketch) (i : ℕ) (item : K) :
    Except Fault ℕ :=
  match o.hashFunctions[i]? with
  | none => .error .noHashFunction
  | some f => f.call hash w item

/-- One iteration of the loop of `Insert`. -/
def insertRow (hash : ℕ → K → ℕ) (a : ℕ) (item : K) (i : ℕ) (w : World) : Except Fault World := do
  let o ← w.obj a
  let b ← o.hashValue hash w i item
  let (p, m) ← w.matrixOf o
  let c ← m.load b i
  let m' ← m.store b i (c + 1)
  return w.setBlock p m'

def insert (hash : ℕ → K → ℕ) (a : ℕ) (item : K) (w : World) : Except Fault World := do
  let o ← w.obj a
  forRange (insertRow hash a item) o.depth w

/-- `for i < width, for j < depth: body`. -/
def forCells (body : ℕ → ℕ → World → Except Fault World) (width depth : ℕ) (w : World) :
    Except Fault World :=
  forRange (fun i => forRange (body i) depth) width w

/-- `matrix_[i][j] = 0`. -/
def clearCell (a i j : ℕ) (w : World) : Except Fault World := do
  let o ← w.obj a
  let (p, m) ← w.matrixOf o
  let m' ← m.store i j 0
  return w.setBlock p m'

/-- `matrix_[i][j] += other.matrix_[i][j]`. -/
def mergeCell (a other i j : ℕ) (w : World) : Except Fault World := do
  let o ← w.obj a
  let oo ← w.obj other
  let (p, m) ← w.matrixOf o
  let (_, mo) ← w.matrixOf oo
  let c ← m.load i j
  let d ← mo.load i j
  let m' ← m.store i j (c + d)
  return w.setBlock p m'

def clear (a : ℕ) (w : World) : Except Fault World := do
  let o ← w.obj a
  forCells (clearCell a) o.width o.depth w

def merge (a other : ℕ) (w : World) : Except Fault (Out × World) := do
  let o ← w.obj a
  let oo ← w.obj other
  if o.width ≠ oo.width ∨ o.depth ≠ oo.depth then return (.invalidArgument, w)
  let w' ← forCells (mergeCell a other) o.width o.depth w
  return (.unit, w')

/-- `matrix_[hash_value][i]` as `Count` reads it. -/
def countCell (hash : ℕ → K → ℕ) (a : ℕ) (item : K) (i : ℕ) (w : World) : Except Fault UInt32 := do
  let o ← w.obj a
  let b ← o.hashValue hash w i item
  let (_, m) ← w.matrixOf o
  m.load b i

/-- One iteration of the loop of `Count`: the cell is read once for the test and again for the
assignment. -/
def countRow (hash : ℕ → K → ℕ) (a : ℕ) (item : K) (w : World) (i : ℕ) (minValue : UInt32) :
    Except Fault UInt32 := do
  let c ← countCell hash a item i w
  if c < minValue then countCell hash a item i w else return minValue

/-- `UINT32_MAX`. -/
def uint32Max : UInt32 := 0xFFFFFFFF

def count (hash : ℕ → K → ℕ) (a : ℕ) (item : K) (w : World) : Except Fault UInt32 := do
  let o ← w.obj a
  forRange (countRow hash a item w) o.depth uint32Max

/-- `matrix_[b][i]` of the sketch at `a`. -/
def cellAt (w : World) (a b i : ℕ) : Except Fault UInt32 := do
  let o ← w.obj a
  let (_, m) ← w.matrixOf o
  m.load b i

/-- The closures `HashFunction(0) .. HashFunction(depth - 1)` of the object at `a`. -/
def hashFunctions (a depth : ℕ) : List HashClosure := (List.range depth).map fun i => ⟨i, a⟩

/-- The constructor: allocate, zero the cells, build the closures. -/
def construct (a width depth : ℕ) (w : World) : Except Fault (Out × World) := do
  if (w.objs a).isSome then .error .liveObject
  else if width = 0 ∨ depth = 0 then return (.invalidArgument, w)
  else
    let p := w.brk
    let w1 := ({ w with brk := p + 1 }.setBlock p (some ⟨width, depth, w.junk p⟩)).setObj a
      (some ⟨width, depth, [], some p⟩)
    let w2 ← forCells (clearCell a) width depth w1
    return (.unit, w2.setObj a (some ⟨width, depth, hashFunctions a depth, some p⟩))

/-- `delete[]` of every row and of the row table.  The loop runs to `width_`, so the block must have
exactly that many rows. -/
def release (o : CountMinSketch) (w : World) : Except Fault World :=
  match o.matrix with
  | none => .ok w
  | some p =>
    match w.heap p with
    | none => .error .released
    | some m => if m.rows = o.width then .ok (w.setBlock p none) else .error .outOfRange

/-- The destructor. -/
def destroy (a : ℕ) (w : World) : Except Fault World := do
  let o ← w.obj a
  let w1 ← release o w
  return w1.setObj a none

/-- Take over the fields of `other`, rebuild the closures for `a`, reset `other`. -/
def takeOver (a other : ℕ) (oo : CountMinSketch) (w : World) : World :=
  (w.setObj a (some ⟨oo.width, oo.depth, hashFunctions a oo.depth, oo.matrix⟩)).setObj other
    (some .movedFrom)

def moveConstruct (a other : ℕ) (w : World) : Except Fault World := do
  let oo ← w.obj other
  if (w.objs a).isSome then .error .liveObject else return takeOver a other oo w

def moveAssign (a other : ℕ) (w : World) : Except Fault World := do
  let o ← w.obj a
  let oo ← w.obj other
  if a = other then return w
  let w1 ← release o w
  return takeOver a other oo w1

inductive Op (K : Type) where
  | construct (a width depth : ℕ)
  | destroy (a : ℕ)
  | insert (a : ℕ) (item : K)
  | clear (a : ℕ)
  | merge (a other : ℕ)
  | moveConstruct (a other : ℕ)
  | moveAssign (a other : ℕ)
  | count (a : ℕ) (item : K)

def step (hash : ℕ → K → ℕ) (w : World) : Op K → Except Fault (Out × World)
  | .construct a width depth => construct a width depth w
  | .destroy a => do return (.unit, ← destroy a w)
  | .insert a item => do return (.unit, ← insert hash a item w)
  | .clear a => do return (.unit, ← clear a w)
  | .merge a other => merge a other w
  | .moveConstruct a other => do return (.unit, ← moveConstruct a other w)
  | .moveAssign a other => do return (.unit, ← moveAssign a other w)
  | .count a item => do return (.count (← count hash a item w), w)

end Model

/-! ## The abstract model: one multiset per sketch -/

section Abstract

/-- The number of items of `s` in bucket `b` of row `i`. -/
def collisions (hash : ℕ → K → ℕ) (width i b : ℕ) (s : Multiset K) : ℕ :=
  s.countP fun y => hash i y % width = b

structure Spec (K : Type) where
  width : ℕ
  depth : ℕ
  items : Multiset K

inductive AbsObj (K : Type) where
  | movedFrom
  | live (sp : Spec K)

def AbsObj.dims : AbsObj K → ℕ × ℕ
  | .movedFrom => (0, 0)
  | .live sp => (sp.width, sp.depth)

def AbsObj.mapItems (f : Multiset K → Multiset K) : AbsObj K → AbsObj K
  | .movedFrom => .movedFrom
  | .live sp => .live { sp with items := f sp.items }

def AbsObj.items : AbsObj K → Multiset K
  | .movedFrom => 0
  | .live sp => sp.items

abbrev AbsWorld (K : Type) := ℕ → Option (AbsObj K)

/-- The minimum of `f 0 .. f (n - 1)` below `UINT32_MAX`. -/
def minRows (f : ℕ → UInt32) : ℕ → UInt32
  | 0 => uint32Max
  | n + 1 => if f n < minRows f n then f n else minRows f n

/-- What `Count` answers: the minimum over the rows of the collisions modulo `2 ^ 32`. -/
def AbsObj.count (hash : ℕ → K → ℕ) (x : K) : AbsObj K → UInt32
  | .movedFrom => uint32Max
  | .live sp => minRows (fun i =>
      UInt32.ofNat (collisions hash sp.width i (hash i x % sp.width) sp.items)) sp.depth

/-- The abstract machine.  An error means that the operation names an object that does not exist (or
constructs over one that does): no program does that. -/
def astep (hash : ℕ → K → ℕ) (w : AbsWorld K) : Op K → Except Unit (Out × AbsWorld K)
  | .construct a width depth =>
    match w a with
    | some _ => .error ()
    | none =>
      if width = 0 ∨ depth = 0 then .ok (.invalidArgument, w)
      else .ok (.unit, Function.update w a (some (.live ⟨width, depth, 0⟩)))
  | .destroy a =>
    match w a with
    | none => .error ()
    | some _ => .ok (.unit, Function.update w a none)
  | .insert a item =>
    match w a with
    | none => .error ()
    | some o => .ok (.unit, Function.update w a (some (o.mapItems (item ::ₘ ·))))
  | .clear a =>
    match w a with
    | none => .error ()
    | some o => .ok (.unit, Function.update w a (some (o.mapItems fun _ => 0)))
  | .merge a other =>
    match w a, w other with
    | some o, some oo =>
      if o.dims = oo.dims then .ok (.unit, Function.update w a (some (o.mapItems (· + oo.items))))
      else .ok (.invalidArgument, w)
    | _, _ => .error ()
  | .moveConstruct a other =>
    match w a, w other with
    | none, some oo =>
      .ok (.unit, Function.update (Function.update w a (some oo)) other (some .movedFrom))
    | _, _ => .error ()
  | .moveAssign a other =>
    match w a, w other with
    | some _, some oo =>
      if a = other then .ok (.unit, w)
      else .ok (.unit, Function.update (Function.update w a (some oo)) other (some .movedFrom))
    | _, _ => .error ()
  | .count a item =>
    match w a with
    | none => .error ()
    | some o => .ok (.count (o.count hash item), w)

end Abstract

end Journey.Sketch
