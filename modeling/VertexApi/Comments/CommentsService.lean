import VertexApi.Core.Table
import VertexApi.Database.Errors
import VertexApi.Database.Users
import VertexApi.Posts.PostStore

/-!
# Comments

The comments of a post are listed with the public columns of their authors, and with the
address as well when an admin moderates; the comments of an author are listed with their
posts. A comment is accepted while the post allows it, and is removed by its author or by
an admin.
-/

namespace VertexApi.Comments

open Posts

/-- The columns of an author that a comment is listed with. -/
structure CommentAuthor where
  id : String
  name : Option String
  displayName : Option String
  avatarUrl : Option String
  /-- Listed for admins only. -/
  email : Option String
  deriving DecidableEq, Repr

/-- A comment in the list of its post. -/
structure CommentWithAuthor where
  comment : Comment
  author : Option CommentAuthor
  deriving DecidableEq, Repr

/-- The columns of a post that a comment is listed with. -/
structure CommentedPost where
  id : String
  title : String
  slug : String
  deriving DecidableEq, Repr

/-- A comment in the list of its author. -/
structure CommentWithPost where
  comment : Comment
  post : Option CommentedPost
  deriving DecidableEq, Repr

/-- The body of a comment. -/
structure CreateCommentDto where
  content : String
  deriving DecidableEq, Repr

/-- The rejection of a comment on a post that takes none. -/
def commentsDisabled : HttpException :=
  badRequestException "Comments are disabled for this article." (some .commentsDisabled)

/-- The rejection of the removal of a comment that is not there. -/
def commentNotFound : HttpException := notFoundException "Comment not found"

/-- The rejection of the removal of another's comment, which carries no code. -/
def commentNotOwned : HttpException where
  status := 403
  message := "You are not allowed to delete this comment"
  code := none

/-- The listed columns of an author. -/
def commentAuthor (includeAuthorEmail : Bool) (user : User) : CommentAuthor where
  id := user.id
  name := user.name
  displayName := user.displayName
  avatarUrl := user.avatarUrl
  email := if includeAuthorEmail then some user.email else none

/-- The listed columns of a post. -/
def commentedPost (post : Post) : CommentedPost where
  id := post.id
  title := post.title
  slug := post.slug

/-- The order of the lists: the latest first. -/
def latestFirst (a b : Comment) : Bool := b.createdAt ≤ a.createdAt

/-- The comments of a post. -/
def findAllForPost (users : List User) (comments : List Comment) (postId : String)
    (includeAuthorEmail : Bool) : List CommentWithAuthor :=
  ((comments.filter fun comment => comment.postId == postId).mergeSort latestFirst).map
    fun comment => {
      comment := comment
      author := (findUserById users comment.authorId).map (commentAuthor includeAuthorEmail) }

/-- The comments of an author. -/
def findAllForAuthor (posts : List Post) (comments : List Comment) (authorId : String) :
    List CommentWithPost :=
  ((comments.filter fun comment => comment.authorId == authorId).mergeSort latestFirst).map
    fun comment => {
      comment := comment
      post := (findPostById posts comment.postId).map commentedPost }

/-- What a comment requires of the post that its lookup returns. -/
def checkPost : Option Post → Except HttpException Unit
  | none => .error postNotFound
  | some post => if post.allowComments then .ok () else .error commentsDisabled

/-- The row of a new comment. -/
def newComment (createCommentDto : CreateCommentDto) (postId authorId commentId : String)
    (now : Nat) : Comment where
  id := commentId
  postId := postId
  authorId := authorId
  content := createCommentDto.content
  createdAt := now

/-- The unique column of `comments`. -/
def commentColumns : List (String × (Comment → Option String)) :=
  [("comments_pkey", fun comment => some comment.id)]

/-- The error of a reference to a row that is not there. -/
def foreignKeyViolation (constraintName : String) : ThrownError :=
  wrapped ⟨postgresForeignKeyViolation, some constraintName⟩

/-- An insert of a comment, whose post and author must be there. -/
def insertComment (users : List User) (posts : List Post) (comments : List Comment)
    (row : Comment) : Except ThrownError (List Comment) :=
  match insertRow commentColumns comments row with
  | .error constraintName => .error (uniqueViolation constraintName)
  | .ok inserted =>
    if (findPostById posts row.postId).isNone then
      .error (foreignKeyViolation "comments_post_id_posts_id_fk")
    else if (findUserById users row.authorId).isNone then
      .error (foreignKeyViolation "comments_author_id_users_id_fk")
    else .ok inserted

/-- `findFirst` on `comments` by primary key. -/
def findCommentById (comments : List Comment) (id : String) : Option Comment :=
  comments.find? fun comment => comment.id == id

/-- A row found by its id carries that id. -/
theorem id_of_findCommentById {comments : List Comment} {id : String} {comment : Comment}
    (h : findCommentById comments id = some comment) : comment.id = id := by
  simpa only [beq_iff_eq] using List.find?_some h

/-- What a removal requires of the comment: the author removes it, or an admin does. -/
def checkRemoval (comment : Comment) (requestingUserId : String) (role : UserRole) :
    Except HttpException Unit :=
  if comment.authorId ≠ requestingUserId ∧ role ≠ .admin then .error commentNotOwned else .ok ()

/-- `comments` without one row. -/
def withoutComment (comments : List Comment) (id : String) : List Comment :=
  comments.filter fun comment => comment.id != id

end VertexApi.Comments
