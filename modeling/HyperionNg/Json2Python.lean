import HyperionNg.Types
import HyperionNg.Json
import HyperionNg.Library.Execution
import HyperionNg.Library.RefCount
import Mathlib.Data.List.ReduceOption

/-! The arguments of an effect as Python objects. A container is filled with
new objects, each of which is given up once it is in. A dictionary takes a
reference of its own before that; a list takes the one there is, so that an
element is given up twice. -/

namespace HyperionNg

open Library.RefCount Library.Execution

/-- A value that `Py_BuildValue` makes. -/
inductive PyScalar
  | none
  | float (d : ℚ)
  | int (n : Int)
  | str (text : List Char)
deriving DecidableEq

inductive PyContents
  | scalar (value : PyScalar)
  | list (items : List (Option Nat))
  | dict (entries : List (List Char × Nat))
deriving DecidableEq

def PyContents.children : PyContents → List Nat
  | .scalar _ => []
  | .list items => items.reduceOption
  | .dict entries => entries.map Prod.snd

abbrev PyHeap := Heap PyContents

/-- The objects an interpreter keeps and shares: `None`, small numbers. -/
abbrev PyShared := PyScalar → Option Nat

/-- `Py_XDECREF` -/
def Py_XDECREF (h : PyHeap) : Option Nat → Except MemoryFault PyHeap
  | some p => h.decref PyContents.children p
  | none => .ok h

def Py_BuildValue (shared : PyShared) (value : PyScalar) (h : PyHeap) :
    Except MemoryFault (PyHeap × Nat) :=
  match shared value with
  | some p => do
    let h ← h.incref p
    pure (h, p)
  | none => .ok (h.alloc (.scalar value), h.size)

def PyDict_New (h : PyHeap) : PyHeap × Nat := (h.alloc (.dict []), h.size)

def PyList_New (size : Nat) (h : PyHeap) : PyHeap × Nat :=
  (h.alloc (.list (List.replicate size none)), h.size)

def PyList_SetItem (h : PyHeap) (list index item : Nat) : Except MemoryFault PyHeap :=
  match h.get list with
  | none => .error .useAfterFree
  | some object =>
    match object.contents with
    | .list items =>
      if index < items.length then
        Py_XDECREF (h.update list object (.list (items.set index (some item)))) items[index]?.join
      else Py_XDECREF h (some item)
    | _ => Py_XDECREF h (some item)

def PyDict_SetItemString (h : PyHeap) (dict : Nat) (key : List Char) (item : Nat) :
    Except MemoryFault PyHeap :=
  match h.get dict with
  | none => .error .useAfterFree
  | some object =>
    match object.contents with
    | .dict entries => do
      let others := entries.eraseP fun entry => entry.1 = key
      let h ← (h.update dict object (.dict ((key, item) :: others))).incref item
      Py_XDECREF h (entries.lookup key)
    | _ => .ok h

namespace Effect

mutual

def json2python (shared : PyShared) : Json → PyHeap → Except MemoryFault (PyHeap × Nat)
  | .null, h => Py_BuildValue shared .none h
  | .double d, h =>
    if d.den ≠ 1 then Py_BuildValue shared (.float d) h
    else Py_BuildValue shared (.int ((Json.double d).toInt 0)) h
  | .bool b, h => Py_BuildValue shared (.int (if b then 1 else 0)) h
  | .string s, h => Py_BuildValue shared (.str (cStr s)) h
  | .object objectData, h => do
    let (h, dict) := PyDict_New h
    let h ← setMembers shared dict objectData h
    pure (h, dict)
  | .array arrayData, h => do
    let (h, list) := PyList_New arrayData.length h
    let h ← setItems shared list 0 arrayData h
    pure (h, list)

def setMembers (shared : PyShared) (dict : Nat) : QJsonObject → PyHeap → Except MemoryFault PyHeap
  | [], h => .ok h
  | (key, value) :: rest, h => do
    let (h, obj) ← json2python shared value h
    let h ← PyDict_SetItemString h dict (cStr key) obj
    let h ← Py_XDECREF h (some obj)
    setMembers shared dict rest h

def setItems (shared : PyShared) (list : Nat) : Nat → List Json → PyHeap → Except MemoryFault PyHeap
  | _, [], h => .ok h
  | index, value :: rest, h => do
    let (h, obj) ← json2python shared value h
    let h ← PyList_SetItem h list index obj
    let h ← Py_XDECREF h (some obj)
    setItems shared list (index + 1) rest h

end

end Effect

end HyperionNg
