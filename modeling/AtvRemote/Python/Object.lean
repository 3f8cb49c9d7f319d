import AtvRemote.Python.Number

/-!
# Python objects

`Obj` is the universe of values that pass through the data-stream codec and through
`json`: Python's own scalars and containers, the wrapper classes of `hds_codec` that
pick a wire width, and the codec's terminator sentinel, which the decoder passes around
in-band.  `PyErr` is the exception a modelled function raises.

Equality follows Python's `==` (`Obj.pyEq`): numbers compare by value across `bool`,
`int` and `float`, a wrapper only equals a wrapper of its own class, and containers,
which the program never compares, equal nothing.
-/

namespace AtvRemote

open Lib

/-- A raised exception: its class, and its text where the program chooses it. -/
inductive PyErr where
  | valueError (msg : String)
  | typeError (msg : String)
  | keyError (key : String)
  | overflowError (msg : String)
  | runtimeError (msg : String)
  | permissionError (msg : String)
  | connectionError (msg : String)
  | timeoutError (msg : String)
  | osError
  | structError
  | unicodeEncodeError
  | unicodeDecodeError
  | invalidTag
  | incompleteReadError
  | cancelledError
deriving DecidableEq, Repr

namespace PyErr

/-- The exceptions that `except ValueError` catches; the Unicode errors are among
them. -/
def isValueError : PyErr → Bool
  | .valueError _ | .unicodeEncodeError | .unicodeDecodeError => true
  | _ => false

/-- `except TimeoutError` catches the exception. -/
def isTimeoutError : PyErr → Bool
  | .timeoutError _ => true
  | _ => false

end PyErr

/-- The widths of the integer wrappers `Int8`, `Int16`, `Int32` and `Int64`. -/
inductive IntWidth where
  | int8 | int16 | int32 | int64
deriving DecidableEq, Repr

/-- The number of bytes of an integer wrapper. -/
def IntWidth.bytes : IntWidth → Nat
  | .int8 => 1
  | .int16 => 2
  | .int32 => 4
  | .int64 => 8

/-- The classes that the codec treats as a byte string. -/
inductive BytesKind where
  | bytes | bytearray | memoryview
deriving DecidableEq, Repr

/-- The classes that the codec treats as an array. -/
inductive SeqKind where
  | list | tuple
deriving DecidableEq, Repr

/-- A Python object. -/
inductive Obj where
  | none
  | bool (b : Bool)
  | int (n : Int)
  /-- `Int8(n)` to `Int64(n)`. -/
  | intN (w : IntWidth) (n : Int)
  | float (x : Float64)
  /-- `Float32(x)`. -/
  | float32 (x : Float64)
  /-- `Float64(x)`. -/
  | float64 (x : Float64)
  /-- `SecondsSince2001(x)`. -/
  | date (x : Float64)
  | str (s : PyStr)
  /-- `HDSUUID(s)`. -/
  | uuid (s : PyStr)
  | bytes (k : BytesKind) (b : Bytes)
  | seq (k : SeqKind) (xs : List Obj)
  /-- A `dict`, its items in insertion order. -/
  | dict (items : List (Obj × Obj))
  /-- The sentinel `TERMINATOR` of the decoder. -/
  | terminator
deriving Repr, Inhabited

namespace Obj

/-- A list. -/
abbrev list (xs : List Obj) : Obj := .seq .list xs

/-- The Python string of a Lean string. -/
abbrev text (s : String) : Obj := .str (PyStr.ofString s)

/-- `a is TERMINATOR`. -/
def isTerminator : Obj → Bool
  | .terminator => true
  | _ => false

/-- `a == b` for everything but containers. -/
def pyEq : Obj → Obj → Bool
  | .none, .none => true
  | .terminator, .terminator => true
  | .bool a, .bool b => a == b
  | .bool a, .int n | .int n, .bool a => n == (if a then 1 else 0)
  | .bool a, .float x | .float x, .bool a => x.eqInt (if a then 1 else 0)
  | .int m, .int n => m == n
  | .int n, .float x | .float x, .int n => x.eqInt n
  | .float x, .float y | .float32 x, .float32 y | .float64 x, .float64 y | .date x, .date y =>
      x.eq y
  | .intN w m, .intN w' n => w == w' && m == n
  | .str s, .str t | .uuid s, .uuid t => s == t
  | .bytes _ b, .bytes _ c => b == c
  | _, _ => false

/-- `hash(a)` does not raise. -/
def hashable : Obj → Bool
  | .seq .list _ | .dict _ | .bytes .bytearray _ => false
  | _ => true

/-- `bool(a)`. -/
def truthy : Obj → Bool
  | .none => false
  | .bool b => b
  | .int n => n != 0
  | .float x => !x.isZero
  | .str s => !s.isEmpty
  | .bytes _ b => !b.isEmpty
  | .seq _ xs => !xs.isEmpty
  | .dict items => !items.isEmpty
  | _ => true

/-- `int(a)`. -/
def toInt : Obj → Except PyErr Int
  | .bool b => .ok (if b then 1 else 0)
  | .int n => .ok n
  | .float x =>
      if x.isNaN then .error (.valueError "cannot convert float NaN to integer")
      else if x.isInf then .error (.overflowError "cannot convert float infinity to integer")
      else .ok x.trunc
  | .str s => match intOfStr 10 s with
      | some n => .ok n
      | Option.none => .error (.valueError "invalid literal for int() with base 10")
  | .bytes _ b => match intOfBytes b with
      | some n => .ok n
      | Option.none => .error (.valueError "invalid literal for int() with base 10")
  | _ => .error (.typeError "int() argument must be a string, a bytes-like object or a real number")

/-- `items.get(k)` on the items of a dictionary. -/
def lookup (items : List (Obj × Obj)) (k : Obj) : Option Obj :=
  (items.find? fun p ↦ p.1.pyEq k).map Prod.snd

/-- `items[k] = v`: a key that is present keeps its place. -/
def setItem (items : List (Obj × Obj)) (k v : Obj) : List (Obj × Obj) :=
  if items.any fun p ↦ p.1.pyEq k then
    items.map fun p ↦ if p.1.pyEq k then (p.1, v) else p
  else items ++ [(k, v)]

/-- A key that equals none of the present ones goes to the end. -/
theorem setItem_of_forall_ne {items : List (Obj × Obj)} {k : Obj}
    (h : ∀ p ∈ items, p.1.pyEq k = false) (v : Obj) : setItem items k v = items ++ [(k, v)] := by
  rw [setItem, if_neg]
  rw [List.any_eq_true]
  rintro ⟨p, hp, hk⟩
  rw [h p hp] at hk
  cases hk

@[simp] theorem lookup_nil (k : Obj) : lookup [] k = Option.none := rfl

theorem lookup_cons (k v k' : Obj) (items : List (Obj × Obj)) :
    lookup ((k, v) :: items) k' = if k.pyEq k' then some v else lookup items k' := by
  cases h : k.pyEq k' <;> simp [lookup, h]

@[simp] theorem pyEq_str (s t : PyStr) : (Obj.str s).pyEq (.str t) = (s == t) := rfl

/-- Only a wrapper of the same class and value equals an integer wrapper. -/
theorem eq_of_pyEq_intN {x : Obj} {w : IntWidth} {n : Int} (h : x.pyEq (.intN w n)) :
    x = .intN w n := by
  cases x with
  | intN w' m => simpa [pyEq] using h
  | _ => simp [pyEq] at h

/-- Only the same string equals a string. -/
theorem eq_of_pyEq_str {x : Obj} {s : PyStr} (h : x.pyEq (.str s)) : x = .str s := by
  cases x with
  | str t => simpa using h
  | _ => simp [pyEq] at h

/-- Only the same wrapper equals a UUID wrapper. -/
theorem eq_of_pyEq_uuid {x : Obj} {s : PyStr} (h : x.pyEq (.uuid s)) : x = .uuid s := by
  cases x with
  | uuid t => simpa [pyEq] using h
  | _ => simp [pyEq] at h

/-- Only a byte string of the same content equals a byte string. -/
theorem eq_of_pyEq_bytes {x : Obj} {k : BytesKind} {b : Bytes} (h : x.pyEq (.bytes k b)) :
    ∃ k', x = .bytes k' b := by
  cases x with
  | bytes k' c => exact ⟨k', by simpa [pyEq] using h⟩
  | _ => simp [pyEq] at h

end Obj

end AtvRemote
