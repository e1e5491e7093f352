/-!
# Tables

The rows of the users, sign-in and content tables. A table is the list of its rows; `findFirst`
takes the first row that matches. Timestamps are epoch milliseconds.
-/

namespace VertexApi

/-- The `role` enumeration. -/
inductive UserRole where
  | user
  | admin
  deriving DecidableEq, Repr

/-- A row of `users`. -/
structure User where
  id : String
  /-- Unique. -/
  email : String
  passwordHash : String
  name : Option String
  displayName : Option String
  avatarUrl : Option String
  /-- Unique where present. -/
  githubId : Option String
  /-- Unique where present. -/
  googleId : Option String
  isBanned : Bool
  role : UserRole
  createdAt : Nat
  updatedAt : Nat
  deriving DecidableEq, Repr

/-- A row of `email_otps`: the pending sign-in code of one address. -/
structure EmailOtp where
  id : String
  /-- Unique. -/
  email : String
  codeHash : String
  expiresAt : Nat
  attempts : Nat
  createdAt : Nat
  deriving DecidableEq, Repr

/-- A row of `oauth_exchange_codes`; its own id and creation time are never read. -/
structure OauthExchangeCode where
  /-- Unique. -/
  codeHash : String
  /-- References `users` with `ON DELETE CASCADE`. -/
  userId : String
  expiresAt : Nat
  deriving DecidableEq, Repr

/-- A row of `posts`. The texts and covers come in the default locale, English and Spanish. -/
structure Post where
  id : String
  title : String
  titleEn : Option String
  titleEs : Option String
  /-- Unique. -/
  slug : String
  /-- Unique where present. -/
  slugEn : Option String
  /-- Unique where present. -/
  slugEs : Option String
  content : String
  contentEn : Option String
  contentEs : Option String
  isPublished : Bool
  /-- Absent while the post is a draft. -/
  publishedAt : Option Nat
  allowComments : Bool
  coverUrl : Option String
  coverUrlEn : Option String
  coverUrlEs : Option String
  coverAlt : Option String
  coverAltEn : Option String
  coverAltEs : Option String
  metaDescription : Option String
  metaDescriptionEn : Option String
  metaDescriptionEs : Option String
  /-- References `users`. -/
  authorId : String
  createdAt : Nat
  updatedAt : Nat
  deriving DecidableEq, Repr

/-- A row of `comments`. -/
structure Comment where
  id : String
  /-- References `posts` with `ON DELETE CASCADE`. -/
  postId : String
  /-- References `users`. -/
  authorId : String
  content : String
  createdAt : Nat
  deriving DecidableEq, Repr

/-- `findFirst` on `users` by primary key. -/
def findUserById (users : List User) (id : String) : Option User :=
  users.find? fun user => user.id == id

/-- A row found by its id carries that id. -/
theorem id_of_findUserById {users : List User} {id : String} {user : User}
    (h : findUserById users id = some user) : user.id = id := by
  simpa only [beq_iff_eq] using List.find?_some h

/-- No row is found exactly when none carries the id. -/
theorem findUserById_eq_none {users : List User} {id : String} :
    findUserById users id = none ↔ ∀ user ∈ users, user.id ≠ id := by
  simp only [findUserById, List.find?_eq_none, beq_iff_eq, ne_eq]

/-- Rows that keep their ids are found in their places. -/
theorem findUserById_map {f : User → User} (hf : ∀ user, (f user).id = user.id)
    (users : List User) (id : String) :
    findUserById (users.map f) id = (findUserById users id).map f := by
  have hsame : (fun user : User => user.id == id) ∘ f = fun user => user.id == id := by
    funext user
    rw [Function.comp_apply, hf]
  rw [findUserById, findUserById, List.find?_map, hsame]

/-- `findFirst` on `users` by address. -/
def findUserByEmail (users : List User) (email : String) : Option User :=
  users.find? fun user => user.email == email

/-- `findFirst` on `email_otps` by address. -/
def findOtpByEmail (otps : List EmailOtp) (email : String) : Option EmailOtp :=
  otps.find? fun row => row.email == email

end VertexApi
