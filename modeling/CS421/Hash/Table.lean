/-
The probing table of hash.h: `find`, `insert` and `remove`.

A slot holds NULL or the address of a `struct table`. The array that `insert`
and `remove` call `table` is read as `hashTable`. The three probe loops need not
end, so each function takes a number of turns, one for each slot it looks at.
Messages are left out.
-/

import CS421.Loops
import Mathlib.Logic.Function.Basic

set_option autoImplicit false

namespace CS421.Hash

open Loops

abbrev SIZE : Nat := 30

abbrev Pointer := Nat

/-- `struct table`. -/
structure Entry where
  data : Int32
  key : Int32
  deriving DecidableEq, Repr

/-- The globals of hash.h and the entries in the heap. No function ever frees
an entry, so the addresses from `fresh` on are those still to be given out. -/
structure Store where
  hashTable : Fin SIZE → Option Pointer
  temp : Option Pointer
  item : Option Pointer
  entry : Pointer → Entry
  fresh : Pointer

inductive Fault where
  /-- `hashTable[index]` with `index` outside `[0, SIZE)`. -/
  | hashTable (index : Int32)
  deriving DecidableEq, Repr

def getHash (key : Int32) : Int32 := key % Int32.ofNat SIZE

def slot (index : Int32) : Except Fault (Fin SIZE) :=
  if bound : 0 ≤ index.toInt ∧ index.toInt.toNat < SIZE then .ok ⟨index.toInt.toNat, bound.2⟩
  else .error (.hashTable index)

/-- The two lines that end the body of every probe loop. -/
def nextIndex (index : Int32) : Int32 := (index + 1) % Int32.ofNat SIZE

def Store.keyOf (store : Store) (pointer : Pointer) : Int32 := (store.entry pointer).key

def Store.setSlot (store : Store) (place : Fin SIZE) (pointer : Option Pointer) : Store :=
  { store with hashTable := Function.update store.hashTable place pointer }

def Store.setKey (store : Store) (pointer : Pointer) (key : Int32) : Store :=
  { store with
    entry := Function.update store.entry pointer { store.entry pointer with key := key } }

/-- `kmalloc` of one entry, and the two assignments that fill it. -/
def Store.allocate (store : Store) (key data : Int32) : Store :=
  { store with
    entry := Function.update store.entry store.fresh { data := data, key := key }
    fresh := store.fresh + 1 }

def findTurn (store : Store) (key : Int32) : Body Int32 (Option Pointer) Fault := fun index =>
  match slot index with
  | .error fault => .stop fault
  | .ok place =>
      match store.hashTable place with
      | none => .done none
      | some pointer =>
          if store.keyOf pointer == key then .done (some pointer)
          else .again (nextIndex index)

def find (turns : Nat) (key : Int32) (store : Store) : Option (Except Fault (Option Pointer)) :=
  run (findTurn store key) turns (getHash key)

def insertTurn (store : Store) : Body Int32 (Fin SIZE) Fault := fun index =>
  match slot index with
  | .error fault => .stop fault
  | .ok place =>
      match store.hashTable place with
      | none => .done place
      | some _ => .again (nextIndex index)

/-- The new entry is the local `temp`; what the slot is given is the global
`item`. -/
def insert (turns : Nat) (allocated : Bool) (key data : Int32) (store : Store) :
    Option (Except Fault (Int32 × Store)) :=
  if allocated then
    let store := store.allocate key data
    match run (insertTurn store) turns (getHash key) with
    | none => none
    | some (.error fault) => some (.error fault)
    | some (.ok place) => some (.ok (0, store.setSlot place store.item))
  else some (.ok (1, store))

/-- The test of the loop is an assignment: it gives the entry the key and holds
when the key is not 0. The slot is given the global `temp`. -/
def removeTurn (key : Int32) : Body (Store × Int32) (Option Pointer × Store) Fault :=
  fun (store, index) =>
    match slot index with
    | .error fault => .stop fault
    | .ok place =>
        match store.hashTable place with
        | none => .done (none, store)
        | some pointer =>
            let store := store.setKey pointer key
            if key != 0 then .done (some pointer, store.setSlot place store.temp)
            else .again (store, nextIndex index)

/-- `item` points to the entry whose key is to go; it need not be in the table. -/
def remove (turns : Nat) (item : Pointer) (store : Store) :
    Option (Except Fault (Option Pointer × Store)) :=
  let key := store.keyOf item
  run (removeTurn key) turns (store, getHash key)

end CS421.Hash
