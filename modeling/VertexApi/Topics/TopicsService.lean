import VertexApi.Common.Slugify
import VertexApi.Posts.PostStore

/-!
# Topics

A topic is stored under its name and the slug of its name, both of which are unique. A new
topic and a renamed one get their slugs in the same way; a topic that is deleted takes its
links to posts along.
-/

namespace VertexApi.Topics

open Common Posts

/-- The unique columns of `topics`, under the names of their constraints. -/
def topicColumns : List (String × (Topic → Option String)) :=
  [("topics_pkey", fun topic => some topic.id),
    ("topics_name_unique", fun topic => some topic.name),
    ("topics_slug_unique", fun topic => some topic.slug)]

/-- The body of a new topic, and of a renaming. -/
structure CreateTopicDto where
  name : String
  deriving DecidableEq, Repr

/-- The validation of a body. -/
def createTopicSchema (input : CreateTopicDto) : Option CreateTopicDto :=
  if input.name = "" then none else some input

/-- The rejection of a topic that is not there. -/
def topicNotFound : HttpException := notFoundException "Topic not found"

section Slugs

variable (normalizeNfd toLowerCase : String → String)

/-- The row of a new topic. -/
def newTopic (createTopicDto : CreateTopicDto) (topicId : String) (now : Nat) : Topic where
  id := topicId
  name := createTopicDto.name
  slug := slugify normalizeNfd toLowerCase createTopicDto.name
  createdAt := now

/-- The write of a renaming. -/
def renamed (updateTopicDto : CreateTopicDto) (row : Topic) : Topic :=
  { row with
    name := updateTopicDto.name
    slug := slugify normalizeNfd toLowerCase updateTopicDto.name }

end Slugs

/-- An insert. -/
def insertTopic (topics : List Topic) (row : Topic) : Except ThrownError (List Topic) :=
  (insertRow topicColumns topics row).mapError uniqueViolation

/-- An update of the topic with an id, with the row that it returns. -/
def updateTopic (topics : List Topic) (id : String) (f : Topic → Topic) :
    Except ThrownError (List Topic × Option Topic) :=
  (updateRow topicColumns Topic.id topics id f).mapError uniqueViolation

/-- `findFirst` on `topics` by primary key. -/
def findTopicById (topics : List Topic) (id : String) : Option Topic :=
  topics.find? fun topic => topic.id == id

/-- A row found by its id carries that id. -/
theorem id_of_findTopicById {topics : List Topic} {id : String} {topic : Topic}
    (h : findTopicById topics id = some topic) : topic.id = id := by
  simpa only [beq_iff_eq] using List.find?_some h

/-- The tables without one topic, and its links. -/
def withoutTopic (tables : PostTables) (id : String) : PostTables :=
  { tables with
    topics := tables.topics.filter fun topic => topic.id != id
    postsToTopics := tables.postsToTopics.filter fun link => link.2 != id }

/-- The order of the list, by name under a collation. -/
def byName (collation : String → String → Bool) (a b : Topic) : Bool := collation a.name b.name

end VertexApi.Topics
