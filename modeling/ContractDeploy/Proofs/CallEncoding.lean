import ContractDeploy.Proofs.ArgumentValues

/-!
# Calls as contracts read them

What comes of a call for every list of arguments: which function it goes to, which argument is
refused, and what the encoding says. A contract that reads the input at the types of the function's
parameters finds the values that the arguments spell, in their order. So the input tells which
values were meant: lists of arguments that spell other values for the same function never make the
same input, and lists for other functions do so only where the hashes of two signatures begin alike.
-/

namespace ContractDeploy

namespace Abi

/-- Arguments spell these values at parameters that stand for these types, one each. -/
inductive Spelled : List Param → List String → List AbiType → List AbiValue → Prop
  | nil : Spelled [] [] [] []
  | cons {param : Param} {arg : String} {type : AbiType} {value : AbiValue} {params : List Param}
      {args : List String} {types : List AbiType} {values : List AbiValue}
      (htype : param.resolve? = some type) (hvalue : readValue? type arg = some value)
      (hrest : Spelled params args types values) :
      Spelled (param :: params) (arg :: args) (type :: types) (value :: values)

/-- A parameter of a function refuses an argument: its type is not known, or the argument is none
of its values. -/
inductive Param.Refuses (function : String) (param : Param) (arg : String) : CalldataFault → Prop
  | unknownType (htype : param.resolve? = none) :
      Param.Refuses function param arg (.unknownType param.type)
  | badArgument {type : AbiType} (htype : param.resolve? = some type)
      (hvalue : readValue? type arg = none) :
      Param.Refuses function param arg (.badArgument param.name function)

/-- The first argument from the left that its parameter refuses, and the fault. -/
inductive FirstRefused (function : String) : List Param → List String → CalldataFault → Prop
  | mk {before after : List Param} {param : Param} {earlier later : List String} {arg : String}
      {types : List AbiType} {values : List AbiValue} {fault : CalldataFault}
      (hearlier : Spelled before earlier types values)
      (hrefuses : param.Refuses function arg fault) :
      FirstRefused function (before ++ param :: after) (earlier ++ arg :: later) fault

/-- The characters of arguments, with one more for the end of each. -/
def argumentsSize : List String → Nat
  | [] => 0
  | arg :: args => arg.length + 1 + argumentsSize args

/-- Arguments as they can be held in memory: 64 bits are enough to count their characters. -/
def Addressable (args : List String) : Prop := argumentsSize args < Bytes.capacity 8

section Arguments

variable {function : String} {params : List Param} {args : List String} {types : List AbiType}
  {values : List AbiValue} {fault : CalldataFault}

theorem Spelled.length_eq (h : Spelled params args types values) : params.length = args.length := by
  induction h with
  | nil => rfl
  | cons _ _ _ ih => rw [List.length_cons, List.length_cons, ih]

/-- The types are those of the parameters. -/
theorem Spelled.resolveAll?_eq (h : Spelled params args types values) :
    resolveAll? params = some types := by
  induction h with
  | nil => rfl
  | cons htype _ _ ih => rw [resolveAll?, htype, ih]

/-- What is spelled is what is read, whatever is to be read behind it. -/
theorem Spelled.readPaired_append (h : Spelled params args types values) (function : String)
    (after : List Param) (later : List String) :
    readPaired function (params ++ after) (args ++ later) =
      (readPaired function after later).map (values ++ ·) := by
  induction h with
  | nil => cases hread : readPaired function after later <;> simp [hread, Except.map]
  | cons htype hvalue _ ih =>
    rw [List.cons_append, List.cons_append, readPaired]
    simp only [htype, hvalue, ih]
    cases readPaired function after later <;> rfl

theorem Spelled.readPaired_eq (h : Spelled params args types values) :
    readPaired function params args = .ok values := by
  have hread := h.readPaired_append function [] []
  rw [List.append_nil, List.append_nil] at hread
  rw [hread]
  show Except.ok (values ++ []) = _
  rw [List.append_nil]

theorem FirstRefused.readPaired_eq (h : FirstRefused function params args fault) :
    readPaired function params args = .error fault := by
  cases h with
  | mk hearlier hrefuses =>
    rw [hearlier.readPaired_append]
    cases hrefuses with
    | unknownType htype =>
      rw [readPaired]
      simp only [htype]
      rfl
    | badArgument htype hvalue =>
      rw [readPaired]
      simp only [htype, hvalue]
      rfl

theorem FirstRefused.cons {param : Param} {arg : String} {type : AbiType} {value : AbiValue}
    (htype : param.resolve? = some type) (hvalue : readValue? type arg = some value)
    (h : FirstRefused function params args fault) :
    FirstRefused function (param :: params) (arg :: args) fault := by
  cases h with
  | mk hearlier hrefuses => exact .mk (.cons htype hvalue hearlier) hrefuses

/-- As many arguments as there are parameters spell values, or one of them is the first to be
refused. -/
theorem spelled_or_firstRefused (function : String) : ∀ {params : List Param} {args : List String},
    params.length = args.length → (∃ types values, Spelled params args types values) ∨
      ∃ fault, FirstRefused function params args fault
  | [], [], _ => .inl ⟨[], [], .nil⟩
  | param :: params, arg :: args, hlength => by
    cases htype : param.resolve? with
    | none => exact .inr ⟨_, .mk .nil (.unknownType htype)⟩
    | some type =>
      cases hvalue : readValue? type arg with
      | none => exact .inr ⟨_, .mk .nil (.badArgument htype hvalue)⟩
      | some value =>
        rcases spelled_or_firstRefused function (Nat.succ.inj hlength) with
          ⟨types, values, hspelled⟩ | ⟨fault, hrefused⟩
        · exact .inl ⟨_, _, .cons htype hvalue hspelled⟩
        · exact .inr ⟨fault, hrefused.cons htype hvalue⟩

/-- What is spelled is values of the types, and the characters of the arguments pay for the room
that they need. -/
theorem Spelled.admits (h : Spelled params args types values) :
    AllAdmit types values ∧ weights values ≤ 96 * argumentsSize args := by
  induction h with
  | nil => exact ⟨.nil, Nat.le_refl 0⟩
  | cons htype hvalue _ ih =>
    obtain ⟨hadmits, hweight⟩ := readValue?_eq_some (Param.fits htype) hvalue
    obtain ⟨hall, htotal⟩ := ih
    refine ⟨.cons hadmits hall, ?_⟩
    rw [weights, argumentsSize]
    omega

/-- The encoding of the arguments reads as the values that they spell. -/
theorem Spelled.decode (h : Spelled params args types values) (hargs : Addressable args) :
    decodeArguments types (encodeArguments values) = some values := by
  obtain ⟨hadmits, hweight⟩ := h.admits
  refine decodeArguments_encodeArguments hadmits (Nat.lt_of_le_of_lt hweight ?_)
  have hroom : 96 * Bytes.capacity 8 ≤ Bytes.capacity 32 := by decide
  exact Nat.lt_of_lt_of_le (Nat.mul_lt_mul_of_pos_left hargs (by decide)) hroom

/-- Arguments that are encoded alike at the same parameters spell the same values. -/
theorem Spelled.of_encoding_eq {others : List String} {otherTypes : List AbiType}
    {otherValues : List AbiValue} (h : Spelled params args types values)
    (hargs : Addressable args) (hother : Spelled params others otherTypes otherValues)
    (hothers : Addressable others)
    (hencoded : encodeArguments otherValues = encodeArguments values) :
    Spelled params others types values := by
  have htypes : types = otherTypes :=
    Option.some.inj (h.resolveAll?_eq.symm.trans hother.resolveAll?_eq)
  subst htypes
  have hdecode := hother.decode hothers
  rw [hencoded, h.decode hargs] at hdecode
  cases hdecode
  exact hother

theorem length_selector (function : Function) : function.selector.length = 4 := by
  rw [Function.selector, selectorOf, List.length_take, FixedBytes.length_bytes]
  rfl

end Arguments

end Abi

open Abi

namespace Interface

/-! ## Calls -/

/-- The function that a call goes to is the first of its name that takes as many arguments, whatever
functions of that name come later. -/
structure Chooses (interface : Interface) (name : String) (arity : Nat) (function : Function) :
    Prop where
  first : ∃ before after, interface.functions.get? name = some (before ++ function :: after) ∧
    ∀ earlier ∈ before, earlier.inputs.length ≠ arity
  arity : function.inputs.length = arity

/-- A call goes to this function, with arguments that spell these values. -/
structure Calls (interface : Interface) (name : String) (args : List String) (function : Function)
    (types : List AbiType) (values : List AbiValue) : Prop where
  chooses : interface.Chooses name args.length function
  spelled : Spelled function.inputs args types values

/-- What comes of encoding a call. -/
inductive CallOutcome (interface : Interface) (name : String) (args : List String) :
    Except CalldataFault Bytes → Prop
  | noFunction (hnone : interface.functions.get? name = none) :
      CallOutcome interface name args (.error (.noFunction name))
  | noOverload {overloads : List Function} (hsome : interface.functions.get? name = some overloads)
      (harity : ∀ function ∈ overloads, function.inputs.length ≠ args.length) :
      CallOutcome interface name args (.error (.noOverload name args.length))
  | refused {function : Function} {fault : CalldataFault}
      (hchooses : interface.Chooses name args.length function)
      (hrefused : FirstRefused name function.inputs args fault) :
      CallOutcome interface name args (.error fault)
  | encoded {function : Function} {types : List AbiType} {values : List AbiValue}
      (hcalls : interface.Calls name args function types values) :
      CallOutcome interface name args (.ok (function.selector ++ encodeArguments values))

/-- What comes of encoding a constructor's arguments. -/
inductive ConstructorOutcome (interface : Interface) (args : List String) :
    Except CalldataFault Bytes → Prop
  | undeclared (hnone : interface.constructorInputs = none) (hargs : args = []) :
      ConstructorOutcome interface args (.ok [])
  | noConstructor (hnone : interface.constructorInputs = none) (hargs : args ≠ []) :
      ConstructorOutcome interface args (.error (.noConstructor args.length))
  | wrongCount {inputs : List Param} (hsome : interface.constructorInputs = some inputs)
      (hcount : inputs.length ≠ args.length) :
      ConstructorOutcome interface args
        (.error (.wrongCount constructorName inputs.length args.length))
  | refused {inputs : List Param} {fault : CalldataFault}
      (hsome : interface.constructorInputs = some inputs) (hcount : inputs.length = args.length)
      (hrefused : FirstRefused constructorName inputs args fault) :
      ConstructorOutcome interface args (.error fault)
  | encoded {inputs : List Param} {types : List AbiType} {values : List AbiValue}
      (hsome : interface.constructorInputs = some inputs)
      (hspelled : Spelled inputs args types values) :
      ConstructorOutcome interface args (.ok (encodeArguments values))

section Outcomes

variable {interface : Interface} {name : String} {args : List String} {arity : Nat}
  {function : Function} {outcome : Except CalldataFault Bytes}

theorem overload_of_chooses (h : interface.Chooses name arity function) :
    interface.overload name arity = .ok function := by
  obtain ⟨⟨before, after, hget, hbefore⟩, harity⟩ := h
  have hfind : (before ++ function :: after).find? (fun f => f.inputs.length = arity) =
      some function := by
    rw [List.find?_eq_some_iff_append]
    exact ⟨by simpa using harity, before, after, rfl, by simpa using hbefore⟩
  rw [overload, hget]
  simp only [hfind]

theorem overload_of_none_fits {overloads : List Function}
    (hget : interface.functions.get? name = some overloads)
    (harity : ∀ function ∈ overloads, function.inputs.length ≠ arity) :
    interface.overload name arity = .error (.noOverload name arity) := by
  have hfind : overloads.find? (fun f => f.inputs.length = arity) = none := by
    rw [List.find?_eq_none]
    simpa using harity
  rw [overload, hget]
  simp only [hfind]

/-- Which function is called depends on the name and the number of arguments alone. -/
theorem Chooses.eq {other : Function} (h : interface.Chooses name arity function)
    (hother : interface.Chooses name arity other) : other = function := by
  have hsame := overload_of_chooses hother
  rw [overload_of_chooses h] at hsame
  exact (Except.ok.inj hsame).symm

theorem readArguments_eq {params : List Param} (hlength : params.length = args.length) :
    readArguments name params args = readPaired name params args := by
  rw [readArguments, if_neg (not_not.2 hlength)]

theorem Calls.encodeCall_eq {types : List AbiType} {values : List AbiValue}
    (h : interface.Calls name args function types values) :
    interface.encodeCall name args = .ok (function.selector ++ encodeArguments values) := by
  rw [encodeCall, overload_of_chooses h.chooses]
  show (readArguments name function.inputs args >>= _) = _
  rw [readArguments_eq h.chooses.arity, h.spelled.readPaired_eq]
  rfl

theorem CallOutcome.encodeCall_eq (h : interface.CallOutcome name args outcome) :
    interface.encodeCall name args = outcome := by
  cases h with
  | noFunction hnone =>
    rw [encodeCall, overload, hnone]
    rfl
  | noOverload hsome harity =>
    rw [encodeCall, overload_of_none_fits hsome harity]
    rfl
  | @refused function fault hchooses hrefused =>
    rw [encodeCall, overload_of_chooses hchooses]
    show (readArguments name function.inputs args >>= _) = _
    rw [readArguments_eq hchooses.arity, hrefused.readPaired_eq]
    rfl
  | encoded hcalls => exact hcalls.encodeCall_eq

theorem exists_callOutcome (interface : Interface) (name : String) (args : List String) :
    ∃ outcome, interface.CallOutcome name args outcome := by
  cases hget : interface.functions.get? name with
  | none => exact ⟨_, .noFunction hget⟩
  | some overloads =>
    cases hfind : overloads.find? fun function => function.inputs.length = args.length with
    | none =>
      rw [List.find?_eq_none] at hfind
      exact ⟨_, .noOverload hget (by simpa using hfind)⟩
    | some function =>
      obtain ⟨harity, before, after, rfl, hbefore⟩ := List.find?_eq_some_iff_append.1 hfind
      have hchooses : interface.Chooses name args.length function :=
        ⟨⟨before, after, hget, by simpa using hbefore⟩, by simpa using harity⟩
      rcases spelled_or_firstRefused name hchooses.arity with
        ⟨types, values, hspelled⟩ | ⟨fault, hrefused⟩
      · exact ⟨_, .encoded ⟨hchooses, hspelled⟩⟩
      · exact ⟨_, .refused hchooses hrefused⟩

theorem encodeCall_eq_iff :
    interface.encodeCall name args = outcome ↔ interface.CallOutcome name args outcome := by
  constructor
  · rintro rfl
    obtain ⟨outcome, houtcome⟩ := exists_callOutcome interface name args
    rwa [houtcome.encodeCall_eq]
  · exact CallOutcome.encodeCall_eq

theorem encodeConstructor_of_some {inputs : List Param}
    (hsome : interface.constructorInputs = some inputs) :
    interface.encodeConstructor args =
      (readArguments constructorName inputs args).map encodeArguments := by
  rw [encodeConstructor, hsome]

theorem encodeConstructor_of_spelled {inputs : List Param} {types : List AbiType}
    {values : List AbiValue} (hsome : interface.constructorInputs = some inputs)
    (hspelled : Spelled inputs args types values) :
    interface.encodeConstructor args = .ok (encodeArguments values) := by
  rw [encodeConstructor_of_some hsome, readArguments_eq hspelled.length_eq, hspelled.readPaired_eq]
  rfl

theorem ConstructorOutcome.encodeConstructor_eq (h : interface.ConstructorOutcome args outcome) :
    interface.encodeConstructor args = outcome := by
  cases h with
  | undeclared hnone hargs =>
    rw [encodeConstructor, hnone, hargs]
    rfl
  | noConstructor hnone hargs =>
    rw [encodeConstructor, hnone]
    exact if_neg (by simpa using hargs)
  | wrongCount hsome hcount =>
    rw [encodeConstructor_of_some hsome, readArguments, if_pos hcount]
    rfl
  | refused hsome hcount hrefused =>
    rw [encodeConstructor_of_some hsome, readArguments_eq hcount, hrefused.readPaired_eq]
    rfl
  | encoded hsome hspelled => exact encodeConstructor_of_spelled hsome hspelled

theorem exists_constructorOutcome (interface : Interface) (args : List String) :
    ∃ outcome, interface.ConstructorOutcome args outcome := by
  cases hinputs : interface.constructorInputs with
  | none =>
    by_cases hargs : args = []
    · exact ⟨_, .undeclared hinputs hargs⟩
    · exact ⟨_, .noConstructor hinputs hargs⟩
  | some inputs =>
    by_cases hcount : inputs.length = args.length
    · rcases spelled_or_firstRefused constructorName hcount with
        ⟨types, values, hspelled⟩ | ⟨fault, hrefused⟩
      · exact ⟨_, .encoded hinputs hspelled⟩
      · exact ⟨_, .refused hinputs hcount hrefused⟩
    · exact ⟨_, .wrongCount hinputs hcount⟩

theorem encodeConstructor_eq_iff :
    interface.encodeConstructor args = outcome ↔ interface.ConstructorOutcome args outcome := by
  constructor
  · rintro rfl
    obtain ⟨outcome, houtcome⟩ := exists_constructorOutcome interface args
    rwa [houtcome.encodeConstructor_eq]
  · exact ConstructorOutcome.encodeConstructor_eq

end Outcomes

/-! ## What the input of a call tells -/

section Inputs

variable {interface : Interface} {name : String} {args others : List String}

/-- The input of a call is a selector and arguments. -/
theorem calls_of_encodeCall {calldata : Bytes} (h : interface.encodeCall name args = .ok calldata) :
    ∃ function types values, interface.Calls name args function types values ∧
      calldata = function.selector ++ encodeArguments values := by
  cases encodeCall_eq_iff.1 h with
  | encoded hcalls => exact ⟨_, _, _, hcalls, rfl⟩

/-- Calls of one input go to functions of one selector and encode their arguments alike. -/
theorem Calls.split_eq {function other : Function} {types otherTypes : List AbiType}
    {values otherValues : List AbiValue} (h : interface.Calls name args function types values)
    (hother : interface.Calls name others other otherTypes otherValues)
    (hsame : interface.encodeCall name others = interface.encodeCall name args) :
    other.selector = function.selector ∧
      encodeArguments otherValues = encodeArguments values := by
  rw [h.encodeCall_eq, hother.encodeCall_eq] at hsame
  have hlength : other.selector.length = function.selector.length := by
    rw [length_selector, length_selector]
  exact List.append_inj (Except.ok.inj hsame) hlength

/-- Calls of one name, one number of arguments and one input spell the same values. -/
theorem Calls.spelled_of_encodeCall_eq {function : Function} {types : List AbiType}
    {values : List AbiValue} (h : interface.Calls name args function types values)
    (hargs : Addressable args) (hothers : Addressable others)
    (hsame : interface.encodeCall name others = interface.encodeCall name args)
    (hlength : others.length = args.length) : Spelled function.inputs others types values := by
  obtain ⟨other, otherTypes, otherValues, hother, -⟩ :=
    calls_of_encodeCall (hsame.trans h.encodeCall_eq)
  obtain ⟨-, hencoded⟩ := h.split_eq hother hsame
  have hfunction : other = function := by
    have hchooses := hother.chooses
    rw [hlength] at hchooses
    exact h.chooses.eq hchooses
  subst hfunction
  exact h.spelled.of_encoding_eq hargs hother.spelled hothers hencoded

/-- The encoding of a constructor's arguments is that of the values that they spell. -/
theorem spelled_of_encodeConstructor {inputs : List Param} {encoded : Bytes}
    (hinputs : interface.constructorInputs = some inputs)
    (h : interface.encodeConstructor args = .ok encoded) :
    ∃ types values, Spelled inputs args types values ∧ encoded = encodeArguments values := by
  cases encodeConstructor_eq_iff.1 h with
  | undeclared hnone =>
    rw [hnone] at hinputs
    cases hinputs
  | encoded hsome hspelled =>
    rw [hsome] at hinputs
    cases hinputs
    exact ⟨_, _, hspelled, rfl⟩

end Inputs

end Interface

/-- A call fails if the name is absent, then if no function of it takes as many arguments, then at
the first argument from the left that is refused by the first function that does; else its input is
the selector of that function and an encoding that reads, at the types of the parameters, as the
values that the arguments spell. Other arguments of one number make the same input only if they
spell the same values, and of another number only if they go to a function of the same selector.
A constructor's arguments are encoded likewise, without functions to choose from and without a
selector, and have to be as many as it takes: none, and no bytes, if no constructor is declared. -/
theorem calldata_reads_as_arguments (interface : Interface) :
    (∀ name args outcome, interface.encodeCall name args = outcome ↔
      interface.CallOutcome name args outcome) ∧
    (∀ name args calldata, Addressable args → interface.encodeCall name args = .ok calldata →
      ∃ function types values, interface.Calls name args function types values ∧
        resolveAll? function.inputs = some types ∧
        function.selector.length = 4 ∧ calldata.take 4 = function.selector ∧
        decodeArguments types (calldata.drop 4) = some values ∧
        ∀ others, Addressable others → interface.encodeCall name others = .ok calldata →
          (others.length = args.length → Spelled function.inputs others types values) ∧
          ∃ other, interface.Chooses name others.length other ∧
            other.selector = function.selector) ∧
    (∀ args outcome, interface.encodeConstructor args = outcome ↔
      interface.ConstructorOutcome args outcome) ∧
    ∀ inputs args encoded, interface.constructorInputs = some inputs → Addressable args →
      interface.encodeConstructor args = .ok encoded →
        ∃ types values, Spelled inputs args types values ∧ resolveAll? inputs = some types ∧
          decodeArguments types encoded = some values ∧
          ∀ others, Addressable others → interface.encodeConstructor others = .ok encoded →
            Spelled inputs others types values := by
  refine ⟨fun _ _ _ => Interface.encodeCall_eq_iff, ?_,
    fun _ _ => Interface.encodeConstructor_eq_iff, ?_⟩
  · intro name args calldata hargs hencoded
    obtain ⟨function, types, values, hcalls, rfl⟩ := Interface.calls_of_encodeCall hencoded
    have hselector := length_selector function
    refine ⟨function, types, values, hcalls, hcalls.spelled.resolveAll?_eq, hselector,
      List.take_left' hselector, ?_, ?_⟩
    · rw [List.drop_left' hselector, hcalls.spelled.decode hargs]
    · intro others hothers hsame
      have hsame := hsame.trans hencoded.symm
      obtain ⟨other, _, _, hother, -⟩ := Interface.calls_of_encodeCall (hsame.trans hencoded)
      exact ⟨hcalls.spelled_of_encodeCall_eq hargs hothers hsame,
        other, hother.chooses, (hcalls.split_eq hother hsame).1⟩
  · intro inputs args encoded hinputs hargs hencoded
    obtain ⟨types, values, hspelled, rfl⟩ :=
      Interface.spelled_of_encodeConstructor hinputs hencoded
    refine ⟨types, values, hspelled, hspelled.resolveAll?_eq, hspelled.decode hargs, ?_⟩
    intro others hothers hsame
    obtain ⟨_, _, hother, halike⟩ := Interface.spelled_of_encodeConstructor hinputs hsame
    exact hspelled.of_encoding_eq hargs hother hothers halike.symm

/-- A function that takes a list with a flag. -/
def setFlagged : Function := ⟨"set", [.mk "setting" "(uint8[],bool)" []]⟩

/-- The input of a call with a list inside a tuple reads back. -/
theorem calldata_reads_as_arguments_nested :
    Addressable ["([7, 9], true)"] ∧
      ∃ calldata types values,
        Interface.encodeCall ⟨none, NameMap.empty.insert "set" [setFlagged]⟩ "set"
          ["([7, 9], true)"] = .ok calldata ∧
        resolveAll? setFlagged.inputs = some types ∧ calldata.take 4 = setFlagged.selector ∧
        decodeArguments types (calldata.drop 4) = some values := by
  have hargs : Addressable ["([7, 9], true)"] := by
    unfold Addressable
    decide
  have hread : ((Param.mk "setting" "(uint8[],bool)" []).resolve?.bind fun type =>
      readValue? type "([7, 9], true)").isSome = true := by
    decide +kernel
  obtain ⟨value, hread⟩ := Option.isSome_iff_exists.1 hread
  obtain ⟨type, htype, hvalue⟩ := Option.bind_eq_some_iff.1 hread
  have hget : (NameMap.empty.insert "set" [setFlagged]).get? "set" = some [setFlagged] := by
    rw [NameMap.get?_insert, if_pos rfl]
  have hcalls : Interface.Calls ⟨none, NameMap.empty.insert "set" [setFlagged]⟩ "set"
      ["([7, 9], true)"] setFlagged [type] [value] :=
    ⟨⟨⟨[], [], hget, nofun⟩, rfl⟩, .cons htype hvalue .nil⟩
  obtain ⟨houtcome, hreads, -⟩ := calldata_reads_as_arguments
    ⟨none, NameMap.empty.insert "set" [setFlagged]⟩
  have hencoded := (houtcome _ _ _).2 (.encoded hcalls)
  obtain ⟨function, types, values, hfound, htypes, -, hselector, hdecode, -⟩ :=
    hreads _ _ _ hargs hencoded
  have hfunction : function = setFlagged := hcalls.chooses.eq hfound.chooses
  subst hfunction
  exact ⟨hargs, _, types, values, hencoded, htypes, hselector, hdecode⟩

/-- The first overload of the arity is called, though a later one would take the argument. -/
example : Interface.encodeCall ⟨none, NameMap.empty.insert "set" [⟨"set", [.mk "flag" "bool" []]⟩,
      ⟨"set", [.mk "count" "uint256" []]⟩]⟩ "set" ["7"] =
    .error (.badArgument "flag" "set") := by
  decide +kernel

/-- A list inside a tuple stands behind the tuple's own head, from whose start its offset counts. -/
example : Interface.encodeConstructor ⟨some [.mk "" "(uint8[],bool)" []], NameMap.empty⟩
      ["([7, 9], true)"] =
    .ok (word 32 ++ (word 64 ++ word 1) ++ (word 2 ++ word 7 ++ word 9)) := by
  decide +kernel

end ContractDeploy
