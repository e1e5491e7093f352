import VertexApi.Core.Substitution

/-!
# JavaScript strings

The string methods that the services call. A string is its list of characters; only its
`length` counts UTF-16 code units.
-/

namespace VertexApi.JsString

/-- `text.startsWith(start)`. -/
def startsWith (text start : String) : Bool := start.toList.isPrefixOf text.toList

/-- `text.slice(start.length)`, for a text that starts so. -/
def sliceAfter (text start : String) : String :=
  String.ofList (text.toList.drop start.toList.length)

/-- `text.lastIndexOf(symbol)`, counted in characters; none when the symbol does not occur. -/
def lastIndexOf (text : String) (symbol : Char) : Option Nat :=
  (text.toList.reverse.findIdx? (· == symbol)).map fun i => text.toList.length - 1 - i

/-- `text.slice(0, stop)`, counted in characters. -/
def sliceBefore (text : String) (stop : Nat) : String := String.ofList (text.toList.take stop)

/-- White space and line terminators. -/
def isWhitespace (c : Char) : Bool :=
  c.toNat ∈ [0x09, 0x0A, 0x0B, 0x0C, 0x0D, 0x20, 0xA0, 0x1680, 0x2000, 0x2001, 0x2002, 0x2003,
    0x2004, 0x2005, 0x2006, 0x2007, 0x2008, 0x2009, 0x200A, 0x2028, 0x2029, 0x202F, 0x205F, 0x3000,
    0xFEFF]

/-- `text.trim()`. -/
def trim (text : String) : String :=
  String.ofList (((text.toList.dropWhile isWhitespace).reverse.dropWhile isWhitespace).reverse)

/-- `text.length`. -/
def length (text : String) : Nat :=
  text.toList.foldl (fun units c => units + if c.toNat < 0x10000 then 1 else 2) 0

/-- The UTF-16 code units of a text. -/
def codeUnits (text : String) : List Nat :=
  text.toList.flatMap fun c =>
    if c.toNat < 0x10000 then [c.toNat]
    else [0xD800 + (c.toNat - 0x10000) / 0x400, 0xDC00 + (c.toNat - 0x10000) % 0x400]

/-- `texts.sort()`, by code units. -/
def sort (texts : List String) : List String :=
  texts.mergeSort fun a b => !(codeUnits b).lex (codeUnits a) fun m n => m < n

/-- A text as an operand of `||`: the empty one counts as absent. -/
def truthy (text : Option String) : Option String := text.filter (· != "")

/-- `text.split(separator)`, for a separator of one character. -/
def split (text : String) (separator : Char) : List String :=
  (text.toList.splitOn separator).map String.ofList

/-- `text.replaceAll(pattern, replacement)`, for a pattern that is not empty and a replacement
without references to the match. -/
def replaceAll (text pattern replacement : String) : String :=
  String.ofList (substitute pattern.toList replacement.toList text.toList)

/-- The characters that a URI component keeps. -/
def isUriUnreserved (c : Char) : Bool := c.isAlphanum || c ∈ "-_.!~*'()".toList

/-- A byte as `%` and two digits. -/
def percentEncoded (byte : UInt8) : List Char :=
  let digits := "0123456789ABCDEF".toList
  ['%', digits.getD (byte.toNat / 16) '0', digits.getD (byte.toNat % 16) '0']

/-- `encodeURIComponent(text)`. -/
def encodeURIComponent (text : String) : String :=
  String.ofList (text.toList.flatMap fun c =>
    if isUriUnreserved c then [c]
    else (String.singleton c).toUTF8.data.toList.flatMap percentEncoded)

/-- The text of a built-in function. -/
def nativeFunction (name : String) : String := "function " ++ name ++ "() \x7b [native code] \x7d"

/-- The methods that every object inherits. -/
def inheritedMethods : List String :=
  ["__defineGetter__", "__defineSetter__", "hasOwnProperty", "__lookupGetter__",
    "__lookupSetter__", "isPrototypeOf", "propertyIsEnumerable", "toString", "valueOf",
    "toLocaleString"]

/-- What an object answers for a name that is none of its own, as a text. -/
def inheritedProperty (name : String) : Option String :=
  if name = "__proto__" then some "[object Object]"
  else if name = "constructor" then some (nativeFunction "Object")
  else if name ∈ inheritedMethods then some (nativeFunction name)
  else none

/-- A text that counts as present is not empty. -/
theorem truthy_eq_some {text : Option String} {value : String} :
    truthy text = some value ↔ text = some value ∧ value ≠ "" := by
  rw [truthy, Option.filter_eq_some_iff, bne_iff_ne]

/-- A text starts so exactly when it goes on from there. -/
theorem startsWith_iff {text start : String} :
    startsWith text start = true ↔ ∃ rest, text = start ++ rest := by
  rw [startsWith, List.isPrefixOf_iff_prefix]
  constructor
  · rintro ⟨rest, hrest⟩
    refine ⟨String.ofList rest, String.ext ?_⟩
    rw [String.toList_append, String.toList_ofList, hrest]
  · rintro ⟨rest, rfl⟩
    exact ⟨rest.toList, String.toList_append.symm⟩

/-- What a slice leaves of a text that starts so. -/
@[simp] theorem sliceAfter_append (start rest : String) :
    sliceAfter (start ++ rest) start = rest := by
  rw [sliceAfter, String.toList_append, List.drop_left, String.ofList_toList]

/-- A symbol is found last in front of a text that it does not occur in. -/
theorem lastIndexOf_append {before after : String} {symbol : Char}
    (hafter : symbol ∉ after.toList) :
    lastIndexOf (before ++ String.singleton symbol ++ after) symbol =
      some before.toList.length := by
  have hskip : after.toList.reverse.findIdx? (· == symbol) = none :=
    List.findIdx?_eq_none_iff.mpr fun c hc =>
      beq_false_of_ne fun h => hafter (h ▸ List.mem_reverse.mp hc)
  simp only [lastIndexOf, String.toList_append, String.toList_singleton, List.reverse_append,
    List.findIdx?_append, hskip, List.reverse_singleton, List.findIdx?_cons, beq_self_eq_true,
    List.length_append, List.length_reverse, List.length_singleton]
  simp

/-- The text before a place between two parts. -/
theorem sliceBefore_append (before after : String) :
    sliceBefore (before ++ after) before.toList.length = before := by
  rw [sliceBefore, String.toList_append, List.take_left, String.ofList_toList]

/-- Two parts without the separator are what its one occurrence splits. -/
theorem split_append {before after : String} {separator : Char}
    (hbefore : separator ∉ before.toList) (hafter : separator ∉ after.toList) :
    split (before ++ String.singleton separator ++ after) separator = [before, after] := by
  have hlist : (before ++ String.singleton separator ++ after).toList =
      before.toList ++ separator :: after.toList := by
    simp only [String.toList_append, String.toList_singleton, List.append_assoc,
      List.singleton_append]
  have hsplit := List.splitOn_append_cons_self (a := separator) before.toList after.toList
  rw [split, hlist, hsplit, List.splitOn_eq_singleton hbefore, List.splitOn_eq_singleton hafter]
  simp only [List.singleton_append, List.map_cons, List.map_nil, String.ofList_toList]

end VertexApi.JsString
