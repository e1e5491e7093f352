import VertexApi.Uploads.Keys

/-!
# Images in Markdown

The uploads that a text shows are found by one pattern, an exclamation mark and an
alternative text in brackets followed by an https address in parentheses. The alternative
text is as short as possible and stays on its line; the address ends at the first white
space or closing parenthesis, and only the latter completes the image. The search goes on
behind each image that it finds.
-/

namespace VertexApi.Uploads

open JsString

/-- What a dot of a pattern does not match. -/
def isLineTerminator (c : Char) : Bool := c.toNat ∈ [0x0A, 0x0D, 0x2028, 0x2029]

/-- What an address may go on with. -/
def isAddressChar (c : Char) : Bool := !isWhitespace c && c != ')'

/-- The address in `](https://…)`, when the text goes on so, and what follows it. -/
def matchTarget (chars : List Char) : Option (List Char × List Char) :=
  if "](https://".toList.isPrefixOf chars then
    let rest := chars.drop 10
    let address := rest.takeWhile isAddressChar
    match rest.dropWhile isAddressChar with
    | ')' :: after =>
      if address = [] then none else some ("https://".toList ++ address, after)
    | _ => none
  else none

/-- The shortest alternative text that a target follows. -/
def matchAlternative : List Char → Option (List Char × List Char)
  | [] => none
  | c :: chars =>
    match matchTarget (c :: chars) with
    | some found => some found
    | none => if isLineTerminator c then none else matchAlternative chars

/-- The image that a text starts with. -/
def matchImage : List Char → Option (List Char × List Char)
  | '!' :: '[' :: chars => matchAlternative chars
  | _ => none

/-- The addresses of the images behind a number of characters. -/
def matchImages : Nat → List Char → List (List Char)
  | _, [] => []
  | skipped + 1, _ :: chars => matchImages skipped chars
  | 0, c :: chars =>
    match matchImage (c :: chars) with
    | none => matchImages 0 chars
    | some (address, after) => address :: matchImages (chars.length - after.length) chars

/-- `content.matchAll(MARKDOWN_IMAGE_URL_PATTERN)`, by the addresses. -/
def markdownImageUrls (content : String) : List String :=
  (matchImages 0 content.toList).map String.ofList

/-- The bucket keys of the images in a text. -/
def extractBucketKeysFromContent (publicUrlPrefix content : String) : List String :=
  ((markdownImageUrls content).filter fun url => startsWith url publicUrlPrefix).map
    fun url => sliceAfter url publicUrlPrefix

/-- A text has the keys of those of its images that lie below the public prefix. -/
theorem mem_extractBucketKeysFromContent {publicUrlPrefix content key : String} :
    key ∈ extractBucketKeysFromContent publicUrlPrefix content ↔
      publicUrlPrefix ++ key ∈ markdownImageUrls content := by
  simp only [extractBucketKeysFromContent, List.mem_map, List.mem_filter, startsWith_iff]
  constructor
  · rintro ⟨url, ⟨hurl, rest, rfl⟩, rfl⟩
    rwa [sliceAfter_append]
  · intro hurl
    exact ⟨_, ⟨hurl, key, rfl⟩, sliceAfter_append ..⟩

end VertexApi.Uploads
