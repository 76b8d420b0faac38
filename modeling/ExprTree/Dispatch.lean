import ExprTree.Ty.Hierarchy
import ExprTree.World

/-!
# Classes at run time

Declaring members on classes, finding the implementation that a class has for a slot, and running
host code through it.

An implementation is looked for along the base chain, nearest class first. A member that is the slot
or overrides it is taken first; where the slot belongs to an interface of the class, a member with
the same name and signature will do as well. Every answer is kept in the override table of the class
that was asked, until that class declares another member of the kind.

## Main definitions

* `ClassDef.addMethod`, `ClassDef.addMember`: declarations.
* `World.findMethod`, `World.findMember`: a fresh look along the base chain.
* `ClassDef.resolveMethod`, `ClassDef.resolveMember`: the look through the override table.
* `Host.invoke`, `Host.read`, `Host.construct`: running the host's bodies.
-/

set_option autoImplicit false

namespace ExprTree

namespace ClassDef

/-- Declare a method on a class. -/
def addMethod (c : ClassDef) (m : MethodDef) : WorldM Unit :=
  modify <| World.modifyDeclared c.id fun d =>
    { d with methods := d.methods ++ [m], methodSlots := fun _ _ => none }

/-- Declare a field or property on a class. -/
def addMember (c : ClassDef) (m : MemberDef) : WorldM Unit :=
  modify <| World.modifyDeclared c.id fun d =>
    { d with members := d.members ++ [m], memberSlots := fun _ _ => none }

end ClassDef

namespace World

/-- Whether an interface that the class derives from declares something. -/
def declaredInInterface (w : World) (c : ClassDef) (declares : Declared → Bool) : Bool :=
  c.anySupertype fun s => s.isInterface && declares (w.declared s.id)

/-- The first method of this name that the class itself declares. -/
def declaredMethod (w : World) (c : ClassDef) (name : String) : Option MethodDef :=
  (w.declared c.id).methods.find? fun m => m.name = name

/-- The first field or property of this name that the class itself declares. -/
def declaredMember (w : World) (c : ClassDef) (name : String) : Option MemberDef :=
  (w.declared c.id).members.find? fun m => m.name = name

/-- The implementation that one class declares for a method slot. -/
def methodOn (w : World) (slot : MethodDef) (bySignature : Bool) (c : ClassDef) :
    Option MethodDef :=
  let methods := (w.declared c.id).methods
  (methods.find? fun m => m.implements slot) <|>
    if bySignature then methods.find? fun m => m.matchesSlot slot else none

/-- The implementation that one class declares for a property slot. -/
def memberOn (w : World) (slot : MemberDef) (bySignature : Bool) (c : ClassDef) :
    Option MemberDef :=
  let members := (w.declared c.id).members
  (members.find? fun m => m.implements slot) <|>
    if bySignature then members.find? fun m => m.matchesSlot slot else none

/-- The nearest implementation of a method slot on the base chain of a class. -/
def findMethod (w : World) (c : ClassDef) (slot : MethodDef) : Option MethodDef :=
  let bySignature := w.declaredInInterface c fun d => d.methods.any fun m => m.id = slot.id
  c.chain.findSome? (w.methodOn slot bySignature)

/-- The nearest implementation of a property slot on the base chain of a class. -/
def findMember (w : World) (c : ClassDef) (slot : MemberDef) : Option MemberDef :=
  let bySignature := w.declaredInInterface c fun d => d.members.any fun m => m.id = slot.id
  c.chain.findSome? (w.memberOn slot bySignature)

end World

namespace ClassDef

/-- Note an answer in the override table of a class. -/
def noteMethod (c : ClassDef) (slot : MethodDef) (answer : Option MethodDef) : World → World :=
  World.modifyDeclared c.id fun d =>
    { d with methodSlots := fun c' slot' =>
        if c' = c ∧ slot' = slot then some answer else d.methodSlots c' slot' }

/-- Note an answer in the override table of a class. -/
def noteMember (c : ClassDef) (slot : MemberDef) (answer : Option MemberDef) : World → World :=
  World.modifyDeclared c.id fun d =>
    { d with memberSlots := fun c' slot' =>
        if c' = c ∧ slot' = slot then some answer else d.memberSlots c' slot' }

/-- The implementation that a class has for a method slot, from its override table if the table
holds an answer. -/
def resolveMethod (c : ClassDef) (slot : MethodDef) : WorldM (Option MethodDef) := fun w =>
  match (w.declared c.id).methodSlots c slot with
  | some answer => (answer, w)
  | none => (w.findMethod c slot, c.noteMethod slot (w.findMethod c slot) w)

/-- The implementation that a class has for a property slot, from its override table if the table
holds an answer. -/
def resolveMember (c : ClassDef) (slot : MemberDef) : WorldM (Option MemberDef) := fun w =>
  match (w.declared c.id).memberSlots c slot with
  | some answer => (answer, w)
  | none => (w.findMember c slot, c.noteMember slot (w.findMember c slot) w)

end ClassDef

/-! ### Host code -/

namespace Host

/-- Run a body and put it on the trace. -/
def runBody (host : Host) (id : MemberId) (missing : String) : HostBody := fun receiver args =>
  match host.body id with
  | none => throw ⟨missing⟩
  | some body => do
    World.record (.ran id receiver args)
    body receiver args

/-- The method that a call of `m` on a receiver runs. Instance methods dispatch on objects. -/
def methodTarget (m : MethodDef) (receiver : Option Value) : WorldM MethodDef :=
  match m.flags.isStatic, receiver with
  | false, some (.object _ c _) => do return (← c.resolveMethod m).getD m
  | _, _ => return m

/-- The member that a read of `d` on a receiver runs. Instance properties dispatch on objects,
fields never do. -/
def memberTarget (d : MemberDef) (receiver : Option Value) : WorldM MemberDef :=
  match d.kind, d.flags.isStatic, receiver with
  | .property, false, some (.object _ c _) => do return (← c.resolveMember d).getD d
  | _, _, _ => return d

/-- Call a method. -/
def invoke (host : Host) (m : MethodDef) (receiver : Option Value) (args : List Value) :
    HostM Value := do
  let target ← methodTarget m receiver
  host.runBody target.id ("method " ++ codeQuoted target.name ++ " has no body") receiver args

/-- Read a field or property. -/
def read (host : Host) (d : MemberDef) (receiver : Option Value) : HostM Value := do
  let target ← memberTarget d receiver
  host.runBody target.id ("member " ++ codeQuoted target.name ++ " has no getter") receiver []

/-- Construct an object. -/
def construct (host : Host) (c : CtorDef) (args : List Value) : HostM Value :=
  host.runBody c.id ("constructor of " ++ codeQuoted c.ty.text ++ " has no body") none args

end Host

end ExprTree
