/-
The skip list of skipList.c.

The nodes lie in the order of their allocation, and a pointer is the place of a
node among them. The cursors of type `slist *` are read as the nodes they point
at, and the first level of an insert as `maxHeight - 1`. The ints are modelled
as integers.
-/

import Mathlib.Algebra.Group.Int.Defs

set_option autoImplicit false

namespace CS421.SkipList

inductive Stop where
  /-- An index outside an array. -/
  | outside
  /-- A read of memory that nothing has been written to. -/
  | unset
  /-- The loop is still running. -/
  | running
  deriving DecidableEq, Repr

abbrev Pointer := Option Nat

/-- A place in an array of pointers, with nothing in it before the first write. -/
abbrev Slot := Option Pointer

structure Node where
  key : Int
  height : Int
  uid : Int
  start : Int
  next : List Slot
  deriving DecidableEq, Repr

structure Slist where
  maxHeight : Int
  chance : Int
  start : Nat
  deriving DecidableEq, Repr

/-- The nodes that have been allocated, and the global `next_random`. -/
structure Heap where
  nextRandom : UInt32
  nodes : List Node
  deriving DecidableEq, Repr

/-- `static unsigned int next_random = 9001` -/
def bootHeap : Heap := { nextRandom := 9001, nodes := [] }

def Heap.next (heap : Heap) (node : Nat) (level : Int) : Except Stop Pointer :=
  match heap.nodes[node]? with
  | none => .error .outside
  | some held =>
      if level < 0 then .error .outside
      else
        match held.next[level.toNat]? with
        | none => .error .outside
        | some none => .error .unset
        | some (some pointer) => .ok pointer

def Heap.setNext (heap : Heap) (node : Nat) (level : Int) (pointer : Pointer) :
    Except Stop Heap :=
  match heap.nodes[node]? with
  | none => .error .outside
  | some held =>
      if 0 ≤ level ∧ level.toNat < held.next.length then
        let changed := { held with next := held.next.set level.toNat (some pointer) }
        .ok { heap with nodes := heap.nodes.set node changed }
      else .error .outside

def setLast (last : List Nat) (level : Int) (temp : Nat) : Except Stop (List Nat) :=
  if 0 ≤ level ∧ level.toNat < last.length then .ok (last.set level.toNat temp)
  else .error .outside

def getRandomInt (nextRandom : UInt32) : UInt32 × UInt32 :=
  let next := nextRandom * 1103515245 + 12345
  (next / 65536 % 32768, next)

def seedRandom (seed : UInt32) (heap : Heap) : Heap := { heap with nextRandom := seed }

/-- `malloc(height * sizeof(node))` has room for four pointers where one is
meant, and the loop sets the first `height` of them. -/
def createNode (start key height uid : Int) (heap : Heap) : Nat × Heap :=
  let set := List.replicate height.toNat (some none)
  let rest := List.replicate (3 * height.toNat) none
  let node := { key := key, height := height, uid := uid, start := start, next := set ++ rest }
  (heap.nodes.length, { heap with nodes := heap.nodes ++ [node] })

def createSkipList (maxHeight chance : Int) (heap : Heap) : Slist × Heap :=
  let (start, heap) := createNode 1 (-1) maxHeight 0 heap
  ({ maxHeight := maxHeight, chance := chance, start := start }, heap)

def searchLoop (heap : Heap) (key : Int) : Nat → Pointer → Int → Except Stop Pointer
  | 0, _, _ => .error .running
  | _ + 1, none, _ => .ok none
  | fuel + 1, some temp, height =>
      match heap.nodes[temp]? with
      | none => .error .outside
      | some node =>
          if node.key = key then .ok (some temp)
          else if node.key > key then
            if height = 1 then .ok none else searchLoop heap key fuel (some temp) (height - 1)
          else
            match heap.next temp 0 with
            | .error stop => .error stop
            | .ok none => .ok none
            | .ok (some next) => searchLoop heap key fuel (some next) height

def skipSearch (fuel : Nat) (list : Slist) (key : Int) (heap : Heap) : Except Stop Pointer :=
  searchLoop heap key fuel (some list.start) (list.maxHeight - 1)

/-- The loop of lines 141 to 146. -/
def upHeightLoop (maxHeight count chance : Int) : Int :=
  if count ≠ 0 ∧ chance ≤ maxHeight then
    upHeightLoop maxHeight (if count < maxHeight then count + 1 else count) (chance + 1)
  else count
termination_by (maxHeight + 1 - chance).toNat

/-- The threshold for a chance. There is none for a chance other than 2, 4, 8
and 16. -/
def checkOf (chance : Int) : Option UInt32 :=
  if chance = 2 then some 16383
  else if chance = 4 then some 8191
  else if chance = 8 then some 4095
  else if chance = 16 then some 2047
  else none

def upHeight (list : Slist) (heap : Heap) : Except Stop (Int × Heap) :=
  match checkOf list.chance with
  | none => .error .unset
  | some check =>
      let (random, nextRandom) := getRandomInt heap.nextRandom
      let chance := if random > check then 0 else 1
      .ok (upHeightLoop list.maxHeight 1 chance, { heap with nextRandom := nextRandom })

/-- The loops of lines 182 to 188 and 206 to 212, up to a level. -/
def connectNew (last : List Nat) (new : Nat) (heap : Heap) : Nat → Except Stop Heap
  | 0 => .ok heap
  | level + 1 =>
      match connectNew last new heap level with
      | .error stop => .error stop
      | .ok heap =>
          match last[level]? with
          | none => .error .outside
          | some before =>
              match heap.next before 0 with
              | .error stop => .error stop
              | .ok none => heap.setNext new level none
              | .ok (some _) =>
                  match heap.next before level with
                  | .error stop => .error stop
                  | .ok pointer => heap.setNext new level pointer

/-- The loops of lines 190 to 192 and 214 to 216, up to a level. -/
def connectOld (last : List Nat) (new : Nat) (heap : Heap) : Nat → Except Stop Heap
  | 0 => .ok heap
  | level + 1 =>
      match connectOld last new heap level with
      | .error stop => .error stop
      | .ok heap =>
          match last[level]? with
          | none => .error .outside
          | some before => heap.setNext before level (some new)

/-- Lines 178 to 192, and the same again in lines 202 to 216. -/
def linkNew (list : Slist) (key uid : Int) (temp : Nat) (curr : Int) (last : List Nat)
    (heap : Heap) : Except Stop Heap :=
  match setLast last curr temp with
  | .error stop => .error stop
  | .ok last =>
      match upHeight list heap with
      | .error stop => .error stop
      | .ok (height, heap) =>
          let (new, heap) := createNode 0 key height uid heap
          match connectNew last new heap height.toNat with
          | .error stop => .error stop
          | .ok heap => connectOld last new heap list.maxHeight.toNat

/-- `temp > 0` on a pointer -/
def aboveZero (temp : Pointer) : Bool := temp.isSome

def insertLoop (list : Slist) (key uid : Int) :
    Nat → Pointer → Int → List Nat → Heap → Except Stop Heap
  | 0, _, _, _, _ => .error .running
  | _ + 1, none, _, _, heap => .ok heap
  | fuel + 1, some temp, curr, last, heap =>
      match heap.next temp curr with
      | .error stop => .error stop
      | .ok none =>
          -- The comment of line 173 is about the level, its test is about the cursor.
          if aboveZero (some temp) then
            match setLast last curr temp with
            | .error stop => .error stop
            | .ok last => insertLoop list key uid fuel (some temp) (curr - 1) last heap
          else linkNew list key uid temp curr last heap
      | .ok (some ahead) =>
          match heap.nodes[ahead]? with
          | none => .error .outside
          | some node =>
              if key < node.key then
                if curr > 0 then
                  match setLast last curr temp with
                  | .error stop => .error stop
                  | .ok last => insertLoop list key uid fuel (some temp) (curr - 1) last heap
                else linkNew list key uid temp curr last heap
              else if key > node.key then
                match setLast last curr ahead with
                | .error stop => .error stop
                | .ok last => insertLoop list key uid fuel (some ahead) curr last heap
              else insertLoop list key uid fuel (some temp) curr last heap

def insertKey (fuel : Nat) (list : Slist) (key uid : Int) (heap : Heap) : Except Stop Heap :=
  insertLoop list key uid fuel (some list.start) (list.maxHeight - 1)
    (List.replicate list.maxHeight.toNat list.start) heap

end CS421.SkipList
