import VertexApi.Common.JsString
import VertexApi.Core.Text

/-!
# Bucket keys

Uploads name their objects by folder: the media of the blog under the month of the upload,
avatars under the user who uploads them. A stored URL leads back to its key by the public
prefix of the bucket alone, whatever folder the key is in.
-/

namespace VertexApi.Uploads

open JsString

/-- The public prefix of an S3 bucket. -/
def s3PublicUrlPrefix (bucketName region : String) : String :=
  "https://" ++ bucketName ++ ".s3." ++ region ++ ".amazonaws.com/"

/-- The folder of the blog's media. -/
def mediaFolder : String := "blog-media/"

/-- The folder of one user's avatars. -/
def avatarFolder (userId : String) : String := "avatars/" ++ userId ++ "/"

/-- The key of a new avatar. -/
def avatarFileKey (userId uuid fileName : String) : String :=
  avatarFolder userId ++ (uuid ++ "-" ++ fileName)

/-- The bucket key of a public URL, or nothing for foreign and absent URLs. -/
def extractBucketKeyFromUrl (publicUrlPrefix : String) : Option String → Option String
  | none => none
  | some url =>
    if startsWith url publicUrlPrefix then some (sliceAfter url publicUrlPrefix) else none

/-- A URL has a key exactly when it is the key below the public prefix. -/
theorem extractBucketKeyFromUrl_eq_some {publicUrlPrefix url key : String} :
    extractBucketKeyFromUrl publicUrlPrefix (some url) = some key ↔
      url = publicUrlPrefix ++ key := by
  simp only [extractBucketKeyFromUrl, Option.ite_none_right_eq_some, startsWith_iff,
    Option.some.injEq]
  constructor
  · rintro ⟨⟨rest, rfl⟩, rfl⟩
    rw [sliceAfter_append]
  · rintro rfl
    exact ⟨⟨key, rfl⟩, sliceAfter_append ..⟩

/-- No avatar lies among the media of the blog. -/
theorem avatarFolder_ne_mediaFolder (userId rest rest' : String) :
    avatarFolder userId ++ rest ≠ mediaFolder ++ rest' := by
  intro he
  have hlist := congrArg (fun text => text.toList.head?) he
  simp [avatarFolder, mediaFolder] at hlist

/-- The folder of a user whose id has no slash is no other user's. -/
theorem avatarFolder_inj {userId other rest rest' : String} (hid : '/' ∉ userId.toList)
    (hother : '/' ∉ other.toList) (he : avatarFolder userId ++ rest = avatarFolder other ++ rest') :
    userId = other := by
  have hslash : "/".toList = ['/'] := by decide
  have hlist := congrArg String.toList he
  simp only [avatarFolder, String.toList_append, hslash, List.append_assoc,
    List.singleton_append, List.append_cancel_left_eq] at hlist
  exact String.ext ((append_cons_inj_of_notMem_left hid hother).mp hlist).1

end VertexApi.Uploads
