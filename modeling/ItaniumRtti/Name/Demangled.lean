import ItaniumRtti.Name.Qualified
import ItaniumRtti.Text.Affix

namespace ItaniumRtti

/-!
# Demangled names

* `Demangler` — the display form of a symbol, where there is one;
* `className?` — the display form of a class's mangled type name;
* `displayName` / `uniqueName` — a class's name, mangled if it has no display form;
* `shortName` — the last component of a function's name;
* `namesDestructor` — whether a function's name is that of a destructor.
-/

/-- The display form of a symbol, where there is one. -/
abbrev Demangler := String → Option String

/-- Prefix of the symbol of a class's type_info. -/
def typeInfoPrefix : String := "_ZTI"

/-- A display form counts only if it is not empty and says more than the symbol itself. -/
def acceptDisplayForm (symbol : String) (form : Option String) : Option String :=
  form.filter fun text => text ≠ "" && text ≠ symbol

/-- `text` without the words that introduce a type_info symbol. -/
def withoutTypeInfoWords (text : String) : String :=
  ((dropPrefix? "typeinfo for " text).or (dropPrefix? "type_info for " text)).getD text

/-- The display form of the class with mangled type name `typeName`. -/
def className? (demangle : Demangler) (typeName : String) : Option String :=
  if typeName = "" then none
  else ((demangle (typeInfoPrefix ++ typeName)).filter (· ≠ "")).map withoutTypeInfoWords

/-- The class's display form, or its mangled type name. -/
def displayName (demangle : Demangler) (typeName : String) : String :=
  ((className? demangle typeName).filter (· ≠ "")).getD typeName

/-- The class's qualified name in normal form, or its mangled type name.  Two programs built from
    one source give a class the same name. -/
def uniqueName (demangle : Demangler) (typeName : String) : String :=
  match (className? demangle typeName).filter (· ≠ "") with
  | none => typeName
  | some text => String.intercalate "::" (splitQualified text)

/-- The last component of a function's display form, without arguments; the symbol itself if it
    has no display form. -/
def shortName (demangle : Demangler) (symbol : String) : String :=
  match (if symbol = "" then none else demangle symbol).filter (· ≠ "") with
  | none => symbol
  | some text =>
    let name := String.ofList (beforeArguments 0 text.toList)
    (splitQualified name).getLast?.getD name

/-- Whether the short name of a function is that of a destructor. -/
def namesDestructor (demangle : Demangler) (symbol : String) : Bool :=
  symbol ≠ "" && hasPrefix "~" (shortName demangle symbol)

end ItaniumRtti
