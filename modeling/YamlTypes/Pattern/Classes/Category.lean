import YamlTypes.Pattern.CharSet
import YamlTypes.Pattern.Table.GeneralCategory

/-!
Classes of characters by general category, and those that need no table.
-/

set_option autoImplicit false

namespace YamlTypes.Pattern.Classes

open CharSet Table

def any : CharSet := ⟨[(0, maxCode)]⟩

def ascii : CharSet := ⟨[(0, 0x7F)]⟩

def asciiDigits : CharSet := ⟨[(48, 57)]⟩

def asciiSpace : CharSet := ⟨[(9, 13), (32, 32)]⟩

def asciiWord : CharSet := ⟨[(48, 57), (65, 90), (95, 95), (97, 122)]⟩

def whiteSpace : CharSet :=
  ⟨[(9, 13), (0x20, 0x20), (0x85, 0x85), (0xA0, 0xA0), (0x1680, 0x1680), (0x2000, 0x200A),
    (0x2028, 0x2029), (0x202F, 0x202F), (0x205F, 0x205F), (0x3000, 0x3000)]⟩

/-- The classes of ASCII characters that are written between brackets and colons. -/
def posix? (name : List Char) : Option CharSet :=
  ([("alnum", [(48, 57), (65, 90), (97, 122)]), ("alpha", [(65, 90), (97, 122)]),
    ("ascii", [(0, 127)]), ("blank", [(9, 9), (32, 32)]), ("cntrl", [(0, 31), (127, 127)]),
    ("digit", [(48, 57)]), ("graph", [(33, 126)]), ("lower", [(97, 122)]),
    ("print", [(32, 126)]), ("punct", [(33, 47), (58, 64), (91, 96), (123, 126)]),
    ("space", [(9, 13), (32, 32)]), ("upper", [(65, 90)]),
    ("word", [(48, 57), (65, 90), (95, 95), (97, 122)]),
    ("xdigit", [(48, 57), (65, 70), (97, 102)])].lookup (String.ofList name)).map CharSet.mk

def category (short : String) : CharSet :=
  match categories.lookup short with
  | some table => ofTable table
  | none => .empty

def anyOf (shorts : List String) : CharSet := unions (shorts.map category)

/-- The categories whose short names begin with a letter. -/
def categoryGroup (letter : Char) : CharSet :=
  unions ((categories.filter fun entry => entry.1.toList.head? == some letter).map fun entry =>
    ofTable entry.2)

def assigned : CharSet := unions (categories.map fun entry => ofTable entry.2)

def unassigned : CharSet := assigned.complement

def letters : CharSet := categoryGroup 'l'

def digits : CharSet := category "nd"

def category? (name : String) : Option CharSet :=
  let short := (categoryNames.lookup name).getD name
  if (categories.lookup short).isSome then some (category short)
  else
    match name, short with
    | "any", _ => some any
    | "assigned", _ => some assigned
    | "ascii", _ => some ascii
    | _, "lc" => some (anyOf ["ll", "lu", "lt"])
    | _, "cn" => some unassigned
    | _, "c" => some ((categoryGroup 'c').union unassigned)
    | _, _ =>
      match short.toList with
      | [letter] =>
        if categories.any fun entry => entry.1.toList.head? == some letter then
          some (categoryGroup letter)
        else none
      | _ => none

end YamlTypes.Pattern.Classes
