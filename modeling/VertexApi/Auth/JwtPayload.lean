import VertexApi.Database.Schema

/-!
# Access token claims
-/

namespace VertexApi.Auth

/-- The claims a token carries. -/
structure JwtPayload where
  sub : String
  email : String
  role : UserRole
  name : Option String
  avatarUrl : Option String
  deriving DecidableEq, Repr

/-- The claims built from a user row. -/
def toJwtPayload (user : User) : JwtPayload where
  sub := user.id
  email := user.email
  role := user.role
  name := user.name
  avatarUrl := user.avatarUrl

end VertexApi.Auth
