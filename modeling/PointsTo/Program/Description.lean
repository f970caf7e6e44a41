import PointsTo.Yaml.Record

/-!
# Program descriptions

A program is described by a document with a list of classes and the signature
of the main method:

```
classes:
  - name: Object
  - name: A
    super: Object
    interfaces: [I]
    fields:
      - { name: f, type: Object }
    methods:
      - name: get
        params: ["Object x"]
        return: Object
        body: ["this.f = x", "r = this.f", "return r"]
main: "<Main: void main()>"
```

The records below hold what is written; nothing in them has been checked.
-/

namespace PointsTo

open Yaml

/-- The description of a field. -/
structure FieldSpec where
  name : String := ""
  type : String := ""
  isStatic : Bool := false

/-- The description of a method. -/
structure MethodSpec where
  name : String := ""
  params : List String := []
  result : String := ""
  isStatic : Bool := false
  isAbstract : Bool := false
  vars : List String := []
  body : List String := []

/-- The description of a class; an empty `super` means that there is none. -/
structure ClassSpec where
  name : String := ""
  super : String := ""
  interfaces : List String := []
  isInterface : Bool := false
  isAbstract : Bool := false
  fields : List FieldSpec := []
  methods : List MethodSpec := []

/-- The description of a program; an empty `main` means that there is none. -/
structure ProgramSpec where
  classes : List ClassSpec := []
  main : String := ""

namespace Decoder

open Yaml.Decoder

/-- Read the description of a field. -/
def fieldSpec : Decoder FieldSpec :=
  record {} fun spec key node =>
    match key with
    | "name" => text.set node spec fun name => { spec with name }
    | "type" => text.set node spec fun type => { spec with type }
    | "static" => bool.set node spec fun isStatic => { spec with isStatic }
    | _ => none

/-- Read the description of a method. -/
def methodSpec : Decoder MethodSpec :=
  record {} fun spec key node =>
    match key with
    | "name" => text.set node spec fun name => { spec with name }
    | "params" => (list text).set node spec fun params => { spec with params }
    | "return" => text.set node spec fun result => { spec with result }
    | "static" => bool.set node spec fun isStatic => { spec with isStatic }
    | "abstract" =>
        bool.set node spec fun isAbstract => { spec with isAbstract }
    | "vars" => (list text).set node spec fun vars => { spec with vars }
    | "body" => (list text).set node spec fun body => { spec with body }
    | _ => none

/-- Read the description of a class. -/
def classSpec : Decoder ClassSpec :=
  record {} fun spec key node =>
    match key with
    | "name" => text.set node spec fun name => { spec with name }
    | "super" => text.set node spec fun super => { spec with super }
    | "interfaces" =>
        (list text).set node spec fun interfaces => { spec with interfaces }
    | "interface" =>
        bool.set node spec fun isInterface => { spec with isInterface }
    | "abstract" =>
        bool.set node spec fun isAbstract => { spec with isAbstract }
    | "fields" =>
        (list fieldSpec).set node spec fun fields => { spec with fields }
    | "methods" =>
        (list methodSpec).set node spec fun methods => { spec with methods }
    | _ => none

/-- Read the description of a program. -/
def programSpec : Decoder ProgramSpec :=
  record {} fun spec key node =>
    match key with
    | "classes" =>
        (list classSpec).set node spec fun classes => { spec with classes }
    | "main" => text.set node spec fun main => { spec with main }
    | _ => none

end Decoder

end PointsTo
