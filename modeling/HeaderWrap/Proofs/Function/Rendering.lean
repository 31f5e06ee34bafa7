import Mathlib.Data.List.Forall2
import HeaderWrap.Proofs.Function.Member
import HeaderWrap.Proofs.Layout

/-! What is rendered of a function: its declaration and its definition have one head, and the C call
passes an argument for each parameter that the head lists. -/
namespace HeaderWrap
open Text

def Declaration.conversion? (registry : Registry) (d : Declaration) : Option Conversion :=
  if d.isWrapped then registry.get? d.baseType else none

theorem Declaration.get?_of_conversion? {registry : Registry} {d : Declaration} {c : Conversion}
    (converted : d.conversion? registry = some c) : registry.get? d.baseType = some c := by
  rw [conversion?] at converted
  split at converted
  · exact converted
  · contradiction

def Declaration.valueCast (registry : Registry) (d : Declaration) : String :=
  ((d.conversion? registry).map Conversion.valueCast).getD Conversion.hole

def Declaration.returnCast (registry : Registry) (d : Declaration) : String :=
  ((d.conversion? registry).bind Conversion.returnCast?).getD Conversion.hole

def Declaration.castType (d : Declaration) : String :=
  d.baseType ++ if d.modifier = .plain then "" else " " ++ d.modifier.symbol

theorem Declaration.baseType_of_isVoid {d : Declaration} (void : d.isVoid) :
    d.baseType = "void" := by
  cases d with
  | resolved base modifier isConst name wrapper? =>
    exact beq_iff_eq.mp (Bool.and_eq_true_iff.mp void).1
  | verbatim text => contradiction

namespace Function

def callOf (callee : String) (args : List String) : String :=
  callee ++ "(" ++ String.intercalate ", " args ++ ")"

private theorem valueArg_eq (registry : Registry) (p : Declaration) :
    valueArg registry p = replaceAll Conversion.hole p.name (p.valueCast registry) := by
  have bare : replaceAll Conversion.hole p.name Conversion.hole = p.name :=
    replaceAll_self (by decide) p.name
  rw [valueArg, Declaration.valueCast, Declaration.conversion?]
  cases registry.get? p.baseType with
  | none => simp [bare]
  | some c =>
    cases p.isWrapped with
    | false => simp [bare]
    | true => rfl

theorem call_eq (f : Function) (target : Option String) (r : Rendering) :
    f.call target r = replaceAll Conversion.hole (callOf f.name (f.callArgs target r))
      (f.result.returnCast r.registry) := by
  have bare (call : String) : replaceAll Conversion.hole call Conversion.hole = call :=
    replaceAll_self (by decide) call
  rw [call, Declaration.returnCast, Declaration.conversion?, ← callOf]
  cases r.registry.get? f.result.baseType with
  | none => simp [bare]
  | some c =>
    cases f.result.isWrapped with
    | false => simp [bare]
    | true =>
      simp only [if_true, Option.bind_some, Conversion.castReturn]
      cases c.returnCast? with
      | none => simp [bare]
      | some cast => rfl

/-- A definition is the head of the declaration, qualified, and one statement in a block. -/
theorem definition?_eq (f : Function) (target owner? : Option String) (r : Rendering) :
    f.definition? target owner? r =
      if f.isOf target then
        some (f.signatureLine target owner? r ++ " \x7b\n" ++ r.options.bodyIndent ++
          f.statement target r ++ "\n\x7d")
      else none := by
  rw [definition?, Layout.fragment_block_line]
  simp [String.append_assoc]

private theorem signatureLine_eq (f : Function) (target owner? : Option String) (r : Rendering) :
    f.signatureLine target owner? r =
      f.result.display ++ " " ++ (owner?.map (· ++ "::")).getD "" ++ f.methodName ++
        ("(" ++ String.intercalate ", " (f.wrapperParams.map Declaration.display) ++ ")" ++
          if f.isConstAt target r.options then " const" else "") := by
  simp only [signatureLine, String.append_assoc]

/-- The head begins with the type of the result. -/
theorem signatureLine_result (f : Function) (target owner? : Option String) (r : Rendering) :
    ∃ rest, f.signatureLine target owner? r = f.result.display ++ " " ++ rest :=
  ⟨_, by rw [signatureLine_eq, String.append_assoc, String.append_assoc]⟩

private theorem const_suffix_iff (s : String) (b : Bool) :
    " const".toList <:+ (s ++ ")" ++ if b then " const" else "").toList ↔ b := by
  cases b with
  | true => exact iff_of_true ⟨(s ++ ")").toList, by simp⟩ rfl
  | false =>
    refine iff_of_false ?_ (by decide)
    rintro ⟨t, ht⟩
    have last := congrArg List.getLast? ht
    simp at last

private theorem const_suffix_signatureLine_iff (f : Function) (target owner? : Option String)
    (r : Rendering) :
    " const".toList <:+ (f.signatureLine target owner? r).toList ↔
      f.isConstAt target r.options :=
  const_suffix_iff _ _

private theorem isVoid_of_prefix {d : Declaration} {p : String}
    (type : Naming.entityPrefix? d.baseType = some p) : d.isVoid = false := by
  refine Bool.eq_false_iff.mpr fun void => ?_
  have none : Naming.entityPrefix? d.baseType = none := by
    rw [Declaration.baseType_of_isVoid void]
    decide
  rw [none] at type
  contradiction

private theorem params_of_member {f : Function} (member : f.isMember) :
    ∃ first rest, f.params = first :: rest ∧ first.isVoid = false := by
  obtain ⟨p, own, -⟩ := isMember_iff.mp member
  obtain ⟨first, rest, params, -, type⟩ := first_of_prefix own
  exact ⟨first, rest, params, isVoid_of_prefix type⟩

/-- The parameters that a head lists are those of the C function, without the handle of a member and
plain `void`. -/
theorem filter_params (f : Function) :
    f.params.filter (!·.isVoid) =
      (if f.isMember then f.params.take 1 else []) ++ f.wrapperParams := by
  rw [wrapperParams]
  by_cases member : f.isMember
  · obtain ⟨first, rest, params, some⟩ := params_of_member member
    simp [member, params, some]
  · simp [member]

def constCast (first : Declaration) (options : Options) : String :=
  "const_cast<" ++ first.castType ++ ">(" ++ options.selfArg ++ ")"

private theorem constCast_ne_selfArg (first : Declaration) (options : Options) :
    constCast first options ≠ options.selfArg := by
  intro same
  have length := congrArg String.length same
  change ("const_cast<" ++ first.castType ++ ">(" ++ options.selfArg ++ ")").length = _ at length
  simp only [String.length_append] at length
  have cast : "const_cast<".length = 11 := by decide
  omega

private theorem handleArg_eq (f : Function) (first : Declaration) (target : Option String)
    (options : Options) : f.handleArg first target options =
      if f.isConstAt target options && !first.isConst then constCast first options
      else options.selfArg :=
  rfl

/-- The C call of a method with the given head: the argument for the handle, if there is one, and
the arguments for the parameters that the head lists. -/
structure Forwards (f : Function) (r : Rendering) (head : String) (handle? : Option String)
    (args : List String) : Prop where
  /-- Members alone pass the handle. -/
  handle : handle?.isSome = f.isMember
  /-- The handle is cast just if the method is constant and the C parameter is not. -/
  cast : ∀ self ∈ handle?, ∃ first ∈ f.params.head?,
    (self = constCast first r.options ↔ " const".toList <:+ head.toList ∧ first.isConst = false) ∧
      (self ≠ constCast first r.options → self = r.options.selfArg)
  /-- One argument for each listed parameter, made of its name. -/
  listed : List.Forall₂
    (fun p arg => arg = replaceAll Conversion.hole p.name (p.valueCast r.registry))
    f.wrapperParams args
  /-- As many arguments as the C function has parameters other than `void`. -/
  count : handle?.toList.length + args.length = (f.params.filter (!·.isVoid)).length

def handle? (f : Function) (target : Option String) (options : Options) : Option String :=
  if f.isMember then f.params.head?.map fun first => f.handleArg first target options else none

/-- The call passes the handle and then a value for each parameter that the head lists. -/
theorem callArgs_eq (f : Function) (target : Option String) (r : Rendering) :
    f.callArgs target r = (f.handle? target r.options).toList ++
      f.wrapperParams.map (valueArg r.registry) := by
  rw [callArgs, handle?, wrapperParams]
  cases f.isMember with
  | false => rfl
  | true =>
    cases f.params with
    | nil => rfl
    | cons first rest => rfl

private theorem isSome_handle? (f : Function) (target : Option String) (options : Options) :
    (f.handle? target options).isSome = f.isMember := by
  rw [handle?]
  by_cases member : f.isMember
  · obtain ⟨first, rest, params, -⟩ := params_of_member member
    simp [member, params]
  · simp [member]

private theorem handle?_forwards (f : Function) (target owner? : Option String) (r : Rendering) :
    f.Forwards r (f.signatureLine target owner? r) (f.handle? target r.options)
      (f.wrapperParams.map (valueArg r.registry)) where
  handle := f.isSome_handle? target r.options
  cast := by
    intro self hself
    rw [handle?] at hself
    split at hself
    · obtain ⟨first, hfirst, rfl⟩ := Option.map_eq_some_iff.mp hself
      refine ⟨first, hfirst, ?_⟩
      rw [const_suffix_signatureLine_iff, handleArg_eq]
      have differ := (constCast_ne_selfArg first r.options).symm
      cases f.isConstAt target r.options <;> cases first.isConst <;> simp [differ]
    · contradiction
  listed := by
    rw [List.forall₂_map_right_iff, List.forall₂_same]
    exact fun p _ => valueArg_eq r.registry p
  count := by
    have handles : (f.handle? target r.options).toList.length =
        (if f.isMember then f.params.take 1 else []).length := by
      by_cases member : f.isMember
      · obtain ⟨first, rest, params, -⟩ := params_of_member member
        simp [handle?, member, params]
      · simp [handle?, member]
    rw [filter_params, List.length_append, List.length_map, handles]

/-- A function is declared for a target just if it is defined for it. The definition has the head of
the declaration, qualified by the owner, and in its body one statement, which returns the result of
the C call, cast, unless it is plain `void`. The arguments of the call are those that the head asks
for. -/
theorem renders_coherently (f : Function) (target owner? : Option String) (r : Rendering) :
    (f.declaration? target r).isSome = (f.definition? target owner? r).isSome ∧
      ∀ declaration ∈ f.declaration? target r, ∀ definition ∈ f.definition? target owner? r,
        ∃ before after statement handle? args,
          declaration = before ++ f.methodName ++ after ++ ";" ∧
          definition = before ++ (owner?.map (· ++ "::")).getD "" ++ f.methodName ++ after ++
            " \x7b\n" ++ r.options.bodyIndent ++ statement ++ "\n\x7d" ∧
          before = f.result.display ++ " " ∧
          (∃ suffix ∈ ["", " const"], after =
            "(" ++ String.intercalate ", " (f.wrapperParams.map Declaration.display) ++ ")" ++
              suffix) ∧
          statement = (if f.result.isVoid then "" else "return ") ++
            replaceAll Conversion.hole (callOf f.name (handle?.toList ++ args))
              (f.result.returnCast r.registry) ++ ";" ∧
          f.Forwards r (before ++ f.methodName ++ after) handle? args := by
  have head (owner? : Option String) := f.signatureLine_eq target owner? r
  have suffix : (if f.isConstAt target r.options then " const" else "") ∈ ["", " const"] := by
    split <;> simp
  generalize (if f.isConstAt target r.options then " const" else "") = last at head suffix
  generalize tail : "(" ++ String.intercalate ", " (f.wrapperParams.map Declaration.display) ++
    ")" ++ last = after at head
  generalize lead : f.result.display ++ " " = before at head
  have plain : f.signatureLine target none r = before ++ f.methodName ++ after := by
    rw [head, Option.map_none, Option.getD_none, String.append_empty]
  rw [declaration?, definition?_eq]
  split
  · rw [Option.isSome_some, Option.isSome_some]
    refine ⟨rfl, fun declaration hd definition hf => ?_⟩
    obtain rfl := Option.some.inj hd
    obtain rfl := Option.some.inj hf
    refine ⟨before, after, f.statement target r, f.handle? target r.options,
      f.wrapperParams.map (valueArg r.registry), ?_, ?_, rfl, ⟨last, suffix, tail.symm⟩,
      ?_, ?_⟩
    · rw [plain]
    · rw [head]
    · rw [← callArgs_eq, ← call_eq, statement]
    · rw [← plain]
      exact f.handle?_forwards target none r
  · exact ⟨rfl, by simp⟩

theorem renders_coherently_getter :
    let f := ofSignature .lvgl
      ⟨"lv_obj_has_text", "bool", ["lv_obj_t * obj", "const char * text"]⟩
    let r : Rendering := ⟨.lvgl, { constGetters := true }⟩
    let head := "bool has_text(const std::string & text) const"
    f.declaration? (some "lv_obj_") r = some (head ++ ";") ∧
      ∃ handle? args, f.Forwards r head handle? args ∧ handle?.toList.length + args.length = 2 := by
  intro f r head
  have declared : f.declaration? (some "lv_obj_") r = some (head ++ ";") := by decide +kernel
  obtain ⟨both, coherent⟩ := renders_coherently f (some "lv_obj_") (some "Object") r
  rw [declared] at both
  obtain ⟨definition, defined⟩ := Option.isSome_iff_exists.mp both.symm
  obtain ⟨before, after, statement, handle?, args, split, -, -, -, -, forwards⟩ :=
    coherent _ declared _ defined
  have same : head = before ++ f.methodName ++ after := (String.append_left_inj ";").mp split
  refine ⟨declared, handle?, args, same ▸ forwards, forwards.count.trans ?_⟩
  decide +kernel

end Function
end HeaderWrap
