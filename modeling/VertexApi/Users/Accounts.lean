import VertexApi.Users.Profile

/-!
# Bans and removals

The operations that end an account or suspend it. A removal runs in one transaction: it is
refused to the author of posts, takes the comments of the user along, and the pending
exchange codes go with the row.
-/

namespace VertexApi.Users

/-- The tables that removals read and write. -/
structure AccountTables where
  users : List User
  posts : List Post
  comments : List Comment
  oauthExchangeCodes : List OauthExchangeCode
  deriving DecidableEq, Repr

/-- The rejection of a ban of oneself. -/
def cannotBanSelf : HttpException :=
  badRequestException "You cannot ban your own account" (some .cannotBanSelf)

/-- The rejection of a removal of oneself from the admin panel. -/
def cannotRemoveSelf : HttpException :=
  badRequestException ("You cannot delete your own account from the admin panel — use your " ++
    "profile page instead") none

/-- The rejection of the removal of an author. -/
def hasAuthoredPosts : HttpException :=
  badRequestException "Cannot delete a user who has authored posts" none

/-- Set or lift the ban of another user. -/
def setBanned (users : List User) (id : String) (isBanned : Bool) (requestingUserId : String) :
    List User × Except HttpException SafeUser :=
  if id = requestingUserId then (users, .error cannotBanSelf)
  else
    let updated := users.map fun row => if row.id = id then { row with isBanned } else row
    match findUserById updated id with
    | none => (users, .error userNotFound)
    | some user => (updated, .ok (safeReturning user))

/-- Delete a user who has no posts, with comments and pending codes. -/
def deleteUserAndCascadeComments (tables : AccountTables) (id : String) :
    AccountTables × Except HttpException SafeUser :=
  if tables.posts.any fun post => post.authorId == id then (tables, .error hasAuthoredPosts)
  else
    match findUserById tables.users id with
    | none => (tables, .error userNotFound)
    | some user =>
      ({ tables with
        users := tables.users.filter fun row => row.id != id
        comments := tables.comments.filter fun comment => comment.authorId != id
        oauthExchangeCodes := tables.oauthExchangeCodes.filter fun row => row.userId != id },
      .ok (safeReturning user))

/-- The removal of another user by an admin. -/
def remove (tables : AccountTables) (id requestingUserId : String) :
    AccountTables × Except HttpException SafeUser :=
  if id = requestingUserId then (tables, .error cannotRemoveSelf)
  else deleteUserAndCascadeComments tables id

/-- The removal of one's own account. -/
def removeSelf (tables : AccountTables) (id : String) :
    AccountTables × Except HttpException SafeUser :=
  deleteUserAndCascadeComments tables id

end VertexApi.Users
