import VertexApi.Common.JsString

/-!
# Bodies of posts

A new post needs a title, a slug and a content; an edit names any of the fields. A blank
slug of a translation counts as none. The check of an address and that of a topic id are
parameters.
-/

namespace VertexApi.Posts

open JsString

/-- The fields that a new post may leave out. -/
structure OptionalPostFields where
  titleEn : Option String
  titleEs : Option String
  slugEn : Option String
  slugEs : Option String
  contentEn : Option String
  contentEs : Option String
  isPublished : Option Bool
  allowComments : Option Bool
  coverUrl : Option String
  coverUrlEn : Option String
  coverUrlEs : Option String
  coverAlt : Option String
  coverAltEn : Option String
  coverAltEs : Option String
  metaDescription : Option String
  metaDescriptionEn : Option String
  metaDescriptionEs : Option String
  topicIds : Option (List String)
  deriving DecidableEq, Repr

/-- A body, before validation. -/
structure PostInput extends OptionalPostFields where
  title : Option String
  slug : Option String
  content : Option String
  deriving DecidableEq, Repr

/-- A validated new post. -/
structure CreatePostDto extends OptionalPostFields where
  title : String
  slug : String
  content : String
  deriving DecidableEq, Repr

/-- A validated edit. -/
structure UpdatePostDto extends OptionalPostFields where
  title : Option String
  slug : Option String
  content : Option String
  deriving DecidableEq, Repr

/-- A letter or a digit of a slug. -/
def isSlugChar (c : Char) : Bool := c.isLower || c.isDigit

/-- `/^[a-z0-9]+(?:-[a-z0-9]+)*$/`: dashes between parts that are not empty. -/
def isSlug (text : String) : Bool :=
  (split text '-').all fun part => part != "" && part.toList.all isSlugChar

/-- An optional text that a check admits. -/
def checkedText (admits : String → Bool) : Option String → Option (Option String)
  | none => some none
  | some text => if admits text then some (some text) else none

/-- `slugSchema.optional()`. -/
def slugSchema : Option String → Option (Option String) := checkedText isSlug

/-- `optionalSlugSchema`: a blank slug is none. -/
def optionalSlugSchema : Option String → Option (Option String)
  | none => some none
  | some text =>
    if isSlug text then some (some text) else if text = "" then some none else none

/-- `z.string().min(1).optional()`. -/
def filledText : Option String → Option (Option String) := checkedText fun text => text != ""

/-- `z.string().max(160).optional()`. -/
def metaText : Option String → Option (Option String) :=
  checkedText fun text => length text ≤ 160

/-- `z.string().url().optional()`, over the address check. -/
def urlText (parseUrl : String → Option String) : Option String → Option (Option String)
  | none => some none
  | some text => (parseUrl text).map some

/-- `z.array(z.string().uuid()).optional()`, over the id check. -/
def topicIdList (isUuid : String → Bool) : Option (List String) → Option (Option (List String))
  | none => some none
  | some topicIds => if topicIds.all isUuid then some (some topicIds) else none

section Schemas

variable (parseUrl : String → Option String) (isUuid : String → Bool)

/-- The validation of the optional fields. -/
def optionalPostFields (input : OptionalPostFields) : Option OptionalPostFields := do
  let slugEn ← optionalSlugSchema input.slugEn
  let slugEs ← optionalSlugSchema input.slugEs
  let coverUrl ← urlText parseUrl input.coverUrl
  let coverUrlEn ← urlText parseUrl input.coverUrlEn
  let coverUrlEs ← urlText parseUrl input.coverUrlEs
  let metaDescription ← metaText input.metaDescription
  let metaDescriptionEn ← metaText input.metaDescriptionEn
  let metaDescriptionEs ← metaText input.metaDescriptionEs
  let topicIds ← topicIdList isUuid input.topicIds
  return { input with
    slugEn, slugEs, coverUrl, coverUrlEn, coverUrlEs, metaDescription, metaDescriptionEn,
    metaDescriptionEs, topicIds }

/-- The validation of an edit. -/
def updatePostSchema (input : PostInput) : Option UpdatePostDto := do
  let title ← filledText input.title
  let slug ← slugSchema input.slug
  let content ← filledText input.content
  let fields ← optionalPostFields parseUrl isUuid input.toOptionalPostFields
  return { toOptionalPostFields := fields, title, slug, content }

/-- The validation of a new post: the title, the slug and the content must be there. -/
def createPostSchema (input : PostInput) : Option CreatePostDto := do
  let dto ← updatePostSchema parseUrl isUuid input
  let title ← dto.title
  let slug ← dto.slug
  let content ← dto.content
  return { toOptionalPostFields := dto.toOptionalPostFields, title, slug, content }

end Schemas

end VertexApi.Posts
