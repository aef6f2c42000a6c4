/-!
# Arguments

The command line is read from left to right, and the first thing that is wrong ends it.  Options may
stand before the command and after it; what stands after it wins.  At each of the two levels an option may
stand once, apart from those that collect values.
-/

namespace HighlightGrammar.Command

/-- Why a command line is not carried out. -/
inductive Halt where
  | usage
  | help
  | version
deriving DecidableEq, Repr

/-- What an option takes. -/
inductive Shape where
  | flag
  /-- One value. -/
  | single (accepts : String → Bool)
  /-- One value each time. -/
  | many (accepts : String → Bool)
  /-- Nothing: the command line ends here. -/
  | halt (reason : Halt)

structure Switch where
  name : String
  letter : Option Char
  shape : Shape

/-- The options given at one level, with their values, last one first.  Flags have no value. -/
abbrev Given : Type := List (String × String)

namespace Given

def has (given : Given) (name : String) : Bool := (given.lookup name).isSome

/-- The values of an option, in order. -/
def values (given : Given) (name : String) : List String :=
  (given.filterMap fun e => if e.1 = name then some e.2 else none).reverse

end Given

/-- Take a flag. -/
def takeFlag (given : Given) (switch : Switch) : Except Halt Given :=
  match switch.shape with
  | .flag => if given.has switch.name then .error .usage else .ok ((switch.name, "") :: given)
  | .halt reason => .error reason
  | _ => .error .usage

/-- Take an option with its value. -/
def takeValue (given : Given) (switch : Switch) (value : String) : Except Halt Given :=
  match switch.shape with
  | .single accepts =>
    if accepts value && !given.has switch.name then .ok ((switch.name, value) :: given) else .error .usage
  | .many accepts => if accepts value then .ok ((switch.name, value) :: given) else .error .usage
  | _ => .error .usage

def takesValue (switch : Switch) : Bool :=
  match switch.shape with
  | .single _ | .many _ => true
  | _ => false

/-- Take the flags of a cluster of letters. -/
def takeLetters (switches : List Switch) (given : Given) : List Char → Except Halt Given
  | [] => .ok given
  | c :: rest => do
    match switches.find? (·.letter == some c) with
    | none => .error .usage
    | some switch => takeLetters switches (← takeFlag given switch) rest

/-- Whether an argument can be the value of the option before it. -/
def isValue (argument : String) : Bool :=
  match argument.toList with
  | '-' :: _ :: _ => false
  | _ => true

/-- The options of one level, and what follows them: a command, which ends the level, or nothing. -/
def takeLevel (switches : List Switch) (given : Given) :
    List String → Except Halt (Given × Option (String × List String))
  | [] => .ok (given, none)
  | argument :: rest =>
    match argument.toList with
    | ['-', '-'] => if rest.isEmpty then .ok (given, none) else .error .usage
    | '-' :: '-' :: long =>
      let name := String.ofList (long.takeWhile (· ≠ '='))
      match switches.find? (·.name == name), long.dropWhile (· ≠ '=') with
      | none, _ => .error .usage
      | some switch, _ :: value =>
        match takeValue given switch (String.ofList value) with
        | .error halt => .error halt
        | .ok given => takeLevel switches given rest
      | some switch, [] =>
        if takesValue switch then
          match rest with
          | [] => .error .usage
          | value :: others =>
            if isValue value then
              match takeValue given switch value with
              | .error halt => .error halt
              | .ok given => takeLevel switches given others
            else .error .usage
        else
          match takeFlag given switch with
          | .error halt => .error halt
          | .ok given => takeLevel switches given rest
    | '-' :: c :: letters =>
      match takeLetters switches given (c :: letters) with
      | .error halt => .error halt
      | .ok given => takeLevel switches given rest
    | _ => .ok (given, some (argument, rest))

end HighlightGrammar.Command
