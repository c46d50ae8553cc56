import KoheronServer.Foundation.Exceptions
import KoheronServer.Foundation.Substrings
import KoheronServer.Devgen.Types

/-!
# Headers of devices

The classes that CppHeaderParser finds in the header of a device, and the operations that devgen
makes of their public methods. A platform dependent integer type is to be refused.
-/

namespace KoheronServer.Devgen

open Foundation

/-! ## What CppHeaderParser returns -/

structure Parameter where
  name : List Char
  type : List Char

structure Method where
  name : List Char
  rtnType : List Char
  template : Bool
  parameters : List Parameter

structure Class where
  name : List Char
  publicMethods : List Method

/-! ## Operations -/

/-- An argument, for the generated code. -/
structure Argument where
  name : List Char
  type : List Char
  byReference : Bool
  isConst : Bool

/-- An argument, for the clients. -/
structure ClientArg where
  name : List Char
  type : List Char

structure Operation where
  tag : List Char
  name : List Char
  retType : List Char
  arguments : Option (List Argument)
  argsClient : Option (List ClientArg)

structure DeviceOperation extends Operation where
  id : Nat

structure HeaderDevice where
  name : List Char
  tag : List Char
  operations : List DeviceOperation

def upper (s : List Char) : List Char := s.map Char.toUpper

def forbiddenInts : List (List Char) :=
  ["short".toList, "int".toList, "unsigned".toList, "long".toList, "unsigned short".toList,
    "short unsigned".toList, "unsigned int".toList, "int unsigned".toList,
    "unsigned long".toList, "long unsigned".toList, "long long".toList,
    "unsigned long long".toList, "long long unsigned".toList]

/-- The message of `check_type`. -/
def invalidType (type devname opname : List Char) : List Char :=
  "[".toList ++ devname ++ "::".toList ++ opname ++ "] Invalid type \"".toList ++ type ++
    "\": Only integers with exact width (e.g. uint32_t) are supported ".toList ++
    "(http://en.cppreference.com/w/cpp/header/cstdint).".toList

def checkType (type devname opname : List Char) : Except Raised Unit :=
  if forbiddenInts.contains type then .error (.valueError (invalidType type devname opname))
  else .ok ()

/-- The argument of a parameter: `type[:-2]` behind a reference, `type[5:]` behind `const`. -/
def parseArgument (param : Parameter) : Argument :=
  let type := strip param.type
  let byReference := type.getLast? = some '&'
  let type := if byReference then strip (type.rdrop 2) else type
  let isConst := "const".toList.isPrefixOf type
  let type := if isConst then strip (type.drop 5) else type
  ⟨param.name, type, byReference, isConst⟩

/-- A round of the loop over the parameters. -/
def parseParameter (devname opname : List Char) (param : Parameter) :
    Except Raised (Argument × ClientArg) := do
  let arg := parseArgument param
  checkType arg.type devname opname
  let type ← formatType arg.type
  return (arg, ⟨arg.name, type⟩)

def parseHeaderOperation (devname : List Char) (method : Method) : Except Raised Operation := do
  checkType method.rtnType devname method.name
  if method.parameters.length > 0 then
    let args ← method.parameters.mapM (parseParameter devname method.name)
    return ⟨upper method.name, method.name, method.rtnType, some (args.map Prod.fst),
      some (args.map Prod.snd)⟩
  else return ⟨upper method.name, method.name, method.rtnType, none, none⟩

/-- `re.findall('[A-Z][^A-Z]*', name)` -/
def capitalWords (name : List Char) : List (List Char) :=
  (name.splitBy fun _ c => !c.isUpper).filter fun word => word.head?.any Char.isUpper

/-- Constructors, the destructor and templates are no operations. -/
def isOperation (className : List Char) (method : Method) : Bool :=
  !List.contains [className, '~' :: className] method.name && !method.template

def parseHeaderDevice (c : Class) : Except Raised HeaderDevice := do
  let operations ← (c.publicMethods.filter (isOperation c.name)).mapM (parseHeaderOperation c.name)
  return ⟨c.name, upper (['_'].intercalate (capitalWords c.name)),
    operations.zipIdx.map fun op => ⟨op.1, op.2⟩⟩

/-! ## Types that are returned -/

/-- `'auto' in operation['ret_type'] or is_std_array(operation['ret_type'])` -/
def isDeduced (retType : List Char) : Bool :=
  (find "auto".toList retType).isSome || isStdArray retType

/-- `std::declval<...>()` -/
def declval (type : List Char) : List Char := "std::declval<".toList ++ type ++ ">()".toList

def getExactRetType (className : List Char) (op : Operation) : List Char :=
  if isDeduced op.retType then
    "decltype(".toList ++ declval className ++ ".".toList ++ op.name ++ "(".toList ++
      " ,".toList.intercalate ((op.arguments.getD []).map fun arg => declval arg.type) ++
      "))".toList
  else op.retType

def formatRetType (className : List Char) (op : Operation) : List Char :=
  if isDeduced op.retType then
    "\" << get_type_str<".toList ++ getExactRetType className op ++ ">() << \"".toList
  else op.retType

/-! ## The operations that are accepted -/

theorem checkType_ok_iff {type devname opname : List Char} :
    checkType type devname opname = .ok () ↔ type ∉ forbiddenInts := by
  unfold checkType
  split
  case isTrue h => simp [List.contains_iff_mem.mp h]
  case isFalse h => exact iff_of_true rfl fun hmem => h (List.contains_iff_mem.mpr hmem)

theorem returns_parseParameter_iff (devname opname : List Char) (param : Parameter) :
    Returns (parseParameter devname opname param) ↔
      (parseArgument param).type ∉ forbiddenInts ∧
      Returns (formatType (parseArgument param).type) := by
  unfold parseParameter
  rw [returns_bind_iff]
  constructor
  · rintro ⟨⟨⟩, hcheck, hformat⟩
    obtain ⟨type, htype, -⟩ := returns_bind_iff.mp hformat
    exact ⟨checkType_ok_iff.mp hcheck, type, htype⟩
  · rintro ⟨hcheck, type, htype⟩
    exact ⟨(), checkType_ok_iff.mpr hcheck, returns_bind_iff.mpr ⟨type, htype, returns_ok _⟩⟩

/-- An operation is accepted when its return type and its arguments are. -/
theorem returns_parseHeaderOperation_iff (devname : List Char) (method : Method) :
    Returns (parseHeaderOperation devname method) ↔
      method.rtnType ∉ forbiddenInts ∧
        ∀ p ∈ method.parameters, (parseArgument p).type ∉ forbiddenInts ∧
          Returns (formatType (parseArgument p).type) := by
  have hparameters : Returns (method.parameters.mapM (parseParameter devname method.name)) ↔
      ∀ p ∈ method.parameters, (parseArgument p).type ∉ forbiddenInts ∧
        Returns (formatType (parseArgument p).type) := by
    rw [returns_mapM_iff]
    exact forall₂_congr fun p _ => returns_parseParameter_iff devname method.name p
  rw [← hparameters, parseHeaderOperation, returns_bind_iff]
  constructor
  · rintro ⟨⟨⟩, hcheck, hrest⟩
    refine ⟨checkType_ok_iff.mp hcheck, ?_⟩
    split at hrest
    case isTrue =>
      obtain ⟨args, hargs, -⟩ := returns_bind_iff.mp hrest
      exact ⟨args, hargs⟩
    case isFalse hlen =>
      have hnil : method.parameters = [] := List.eq_nil_of_length_eq_zero (by omega)
      rw [hnil]
      exact returns_ok _
  · rintro ⟨hcheck, args, hargs⟩
    refine ⟨(), checkType_ok_iff.mpr hcheck, ?_⟩
    split
    case isTrue => exact returns_bind_iff.mpr ⟨args, hargs, returns_ok _⟩
    case isFalse => exact returns_ok _

end KoheronServer.Devgen
