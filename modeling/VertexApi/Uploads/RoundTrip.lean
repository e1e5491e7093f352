import VertexApi.Database.Errors
import VertexApi.Uploads.ImageSearch

/-!
# From uploads to texts and back

An upload is named after the file that it comes from, whatever the name is. The key goes into
a text as part of an address, and the search for images is to lead back to it, for any number
of images with other text in between.
-/

namespace VertexApi.Uploads

/-- What `randomUUID` returns. -/
structure Uuid where
  text : String
  chars : ∀ c ∈ text.toList, c ∈ "0123456789abcdef-".toList

/-- A date in local time, as far as it is read. -/
structure LocalDate where
  getFullYear : Nat
  getMonth : Fin 12

/-- The content types of images. -/
inductive ImageContentType where
  | jpeg
  | png
  | webp
  deriving DecidableEq, Repr

/-- The text of a content type. -/
def ImageContentType.text : ImageContentType → String
  | .jpeg => "image/jpeg"
  | .png => "image/png"
  | .webp => "image/webp"

/-- What `generatePresignedUrlSchema` admits. -/
structure GeneratePresignedUrlDto where
  fileName : String
  fileName_ne : fileName ≠ ""
  contentType : ImageContentType

/-- What an upload is prepared with. -/
structure PresignedUpload where
  presignedUrl : String
  fileKey : String
  deriving DecidableEq, Repr

/-- The folder of the uploads of a month. -/
def monthFolder (date : LocalDate) : String :=
  mediaFolder ++ String.ofList (Nat.toDigits 10 date.getFullYear) ++ "-" ++
    String.ofList ((Nat.toDigits 10 (date.getMonth + 1)).leftpad 2 '0')

/-- `getPresignedUrl`, with the date and the id that it draws. -/
def getPresignedUrl {ε : Type} (createPresignedUploadUrl : String → String → Except ε String)
    (date : LocalDate) (randomUUID : Uuid) (fileName contentType : String) :
    Except ε PresignedUpload := do
  let fileKey := monthFolder date ++ "/" ++ randomUUID.text ++ "-" ++ fileName
  let presignedUrl ← createPresignedUploadUrl fileKey contentType
  return ⟨presignedUrl, fileKey⟩

/-- A text in which no image starts. -/
structure PlainText where
  text : String
  plain : ¬ ['!', '['] <:+: text.toList

/-- An image under a key that `getPresignedUrl` has returned, and the text behind it. -/
structure UploadedImage where
  dto : GeneratePresignedUrlDto
  createPresignedUploadUrl : String → String → Except ThrownError String
  date : LocalDate
  randomUUID : Uuid
  upload : PresignedUpload
  returned : getPresignedUrl createPresignedUploadUrl date randomUUID dto.fileName
    dto.contentType.text = .ok upload
  alt : String
  /-- Neither brackets nor line breaks. -/
  alt_plain : ∀ c ∈ alt.toList, c ≠ '[' ∧ c ≠ ']' ∧ isLineTerminator c = false
  after : PlainText

/-- The Markdown of uploaded images. -/
def markdown (publicUrlPrefix : String) : List UploadedImage → String
  | [] => ""
  | image :: images =>
    "![" ++ image.alt ++ "](" ++ (publicUrlPrefix ++ image.upload.fileKey) ++ ")" ++
      image.after.text ++ markdown publicUrlPrefix images

/-- A text that an address goes through as it is. -/
def AddressSafe (text : String) : Prop := ∀ c ∈ text.toList, isAddressChar c = true

instance decidableAddressSafe (text : String) : Decidable (AddressSafe text) :=
  decidable_of_iff (text.toList.all isAddressChar = true) List.all_eq_true

section Safety

variable {a b : String}

/-- A text is safe when its parts are. -/
theorem addressSafe_append : AddressSafe (a ++ b) ↔ AddressSafe a ∧ AddressSafe b := by
  rw [AddressSafe, String.toList_append, List.forall_mem_append]
  rfl

/-- A digit is safe. -/
theorem isAddressChar_of_isDigit {c : Char} (h : c.isDigit = true) : isAddressChar c = true := by
  have hbounds : 48 ≤ c.toNat ∧ c.toNat ≤ 57 := by
    simpa [Char.isDigit, UInt32.le_iff_toNat_le] using h
  have hne : c ≠ ')' := by
    rintro rfl
    cases h
  simp only [isAddressChar, JsString.isWhitespace, Bool.and_eq_true, Bool.not_eq_true',
    decide_eq_false_iff_not, bne_iff_ne]
  refine ⟨fun hmem => ?_, hne⟩
  simp only [List.mem_cons, List.not_mem_nil, or_false] at hmem
  omega

/-- So is a number. -/
theorem addressSafe_digits {digits : List Char} (h : ∀ c ∈ digits, c.isDigit = true) :
    AddressSafe (String.ofList digits) := by
  rw [AddressSafe, String.toList_ofList]
  exact fun c hc => isAddressChar_of_isDigit (h c hc)

/-- The folder of a month is safe. -/
theorem addressSafe_monthFolder (date : LocalDate) : AddressSafe (monthFolder date) := by
  have hfolder : AddressSafe mediaFolder ∧ AddressSafe "-" := by
    decide
  simp only [monthFolder, addressSafe_append]
  refine ⟨⟨⟨hfolder.1, addressSafe_digits fun c => ?_⟩, hfolder.2⟩,
    addressSafe_digits fun c hc => ?_⟩
  · exact Nat.isDigit_of_mem_toDigits (by decide) (by decide)
  · rcases List.mem_append.mp hc with hpad | hdigit
    · obtain rfl := List.eq_of_mem_replicate hpad
      rfl
    · exact Nat.isDigit_of_mem_toDigits (by decide) (by decide) hdigit

/-- A random id is safe. -/
theorem Uuid.addressSafe (uuid : Uuid) : AddressSafe uuid.text := by
  have hall : AddressSafe "0123456789abcdef-" := by decide
  exact fun c hc => hall c (uuid.chars c hc)

/-- The key of an upload. -/
theorem fileKey_of_getPresignedUrl {ε : Type}
    {createPresignedUploadUrl : String → String → Except ε String} {date : LocalDate} {uuid : Uuid}
    {fileName contentType : String} {upload : PresignedUpload}
    (h : getPresignedUrl createPresignedUploadUrl date uuid fileName contentType = .ok upload) :
    upload.fileKey = monthFolder date ++ "/" ++ uuid.text ++ "-" ++ fileName := by
  simp only [getPresignedUrl] at h
  cases hcreate : createPresignedUploadUrl
    (monthFolder date ++ "/" ++ uuid.text ++ "-" ++ fileName) contentType with
  | error error =>
    rw [hcreate] at h
    cases h
  | ok presignedUrl =>
    rw [hcreate] at h
    rw [← Except.ok.inj h]

/-- The address of an upload is safe when the names of the bucket, of its region and of the file
are. -/
theorem addressSafe_iff (image : UploadedImage) (bucketName region : String) :
    AddressSafe (s3PublicUrlPrefix bucketName region ++ image.upload.fileKey) ↔
      AddressSafe bucketName ∧ AddressSafe region ∧ AddressSafe image.dto.fileName := by
  have htexts : AddressSafe "https://" ∧ AddressSafe ".s3." ∧ AddressSafe ".amazonaws.com/" ∧
      AddressSafe "/" ∧ AddressSafe "-" := by
    decide
  obtain ⟨hscheme, hs3, hhost, hslash, hhyphen⟩ := htexts
  simp only [s3PublicUrlPrefix, fileKey_of_getPresignedUrl image.returned, addressSafe_append,
    hscheme, hs3, hhost, hslash, hhyphen, addressSafe_monthFolder, Uuid.addressSafe, true_and,
    and_true, and_assoc]

end Safety

section RoundTrip

variable {bucketName region : String}

/-- No image starts in a plain text, in front of anything but a bracket. -/
theorem PlainText.finds {text : PlainText} {rest : List Char} {found : List (List Char)}
    (hrest : rest.head? ≠ some '[') (h : Finds matchImage rest found) :
    Finds matchImage (text.text.toList ++ rest) found := by
  refine Finds.append (fun a former later hsplit => ?_) h
  refine matchImage_eq_none fun ha => ?_
  subst ha
  cases later with
  | nil => exact hrest
  | cons c later =>
    rintro ⟨⟩
    exact text.plain ⟨former, later, by rw [hsplit]; simp⟩

/-- The Markdown of images is empty, or starts with one. -/
theorem head?_markdown (publicUrlPrefix : String) (images : List UploadedImage) :
    (markdown publicUrlPrefix images).toList.head? ≠ some '[' := by
  cases images with
  | nil => simp [markdown]
  | cons image images => simp [markdown]

/-- The Markdown of an image. -/
theorem toList_markdown_cons (publicUrlPrefix : String) (image : UploadedImage)
    (images : List UploadedImage) : (markdown publicUrlPrefix (image :: images)).toList =
    '!' :: '[' :: (image.alt.toList ++ (']' :: '(' ::
      ((publicUrlPrefix ++ image.upload.fileKey).toList ++ ')' ::
        (image.after.text.toList ++ (markdown publicUrlPrefix images).toList)))) := by
  have hopen : "![".toList = ['!', '['] := by decide
  have hmiddle : "](".toList = [']', '('] := by decide
  have hclose : ")".toList = [')'] := by decide
  rw [markdown]
  simp only [String.toList_append, hopen, hmiddle, hclose, List.append_assoc, List.cons_append,
    List.nil_append]

/-- An uploaded image with a safe address is found. -/
theorem matchImage_markdown (image : UploadedImage) (images : List UploadedImage)
    (h : AddressSafe (s3PublicUrlPrefix bucketName region ++ image.upload.fileKey)) :
    matchImage (markdown (s3PublicUrlPrefix bucketName region) (image :: images)).toList =
      some ((s3PublicUrlPrefix bucketName region ++ image.upload.fileKey).toList,
        image.after.text.toList ++
          (markdown (s3PublicUrlPrefix bucketName region) images).toList) := by
  obtain ⟨path, hne, haddress⟩ : ∃ path : String, path.toList ≠ [] ∧
      s3PublicUrlPrefix bucketName region ++ image.upload.fileKey = "https://" ++ path := by
    refine ⟨bucketName ++ ".s3." ++ region ++ ".amazonaws.com/" ++ image.upload.fileKey, ?_, ?_⟩
    · simp
    · simp only [s3PublicUrlPrefix, String.append_assoc]
  rw [haddress, addressSafe_append] at h
  have hurl : ("https://" ++ path).toList = "https://".toList ++ path.toList :=
    String.toList_append
  rw [toList_markdown_cons, haddress, hurl]
  exact matchImage_append (fun c hc => (image.alt_plain c hc).2) hne h.2

/-- The search finds each uploaded image with a safe address. -/
theorem finds_markdown {images : List UploadedImage} (h : ∀ image ∈ images,
    AddressSafe (s3PublicUrlPrefix bucketName region ++ image.upload.fileKey)) :
    Finds matchImage (markdown (s3PublicUrlPrefix bucketName region) images).toList
      (images.map fun image =>
        (s3PublicUrlPrefix bucketName region ++ image.upload.fileKey).toList) := by
  induction images with
  | nil => exact .nil rfl
  | cons image images ih =>
    obtain ⟨himage, himages⟩ := List.forall_mem_cons.mp h
    exact .find (matchImage_markdown image images himage)
      (image.after.finds (head?_markdown _ images) (ih himages))

/-- The keys of uploaded images come back from a text, one after the other, exactly when the names
of their files, of the bucket and of its region have neither white space nor a closing
parenthesis. -/
theorem extractBucketKeysFromContent_markdown (bucketName region : String) (before : PlainText)
    (images : List UploadedImage) :
    extractBucketKeysFromContent (s3PublicUrlPrefix bucketName region)
        (before.text ++ markdown (s3PublicUrlPrefix bucketName region) images) =
      images.map (fun image => image.upload.fileKey) ↔
    ∀ image ∈ images, AddressSafe bucketName ∧ AddressSafe region ∧
      AddressSafe image.dto.fileName := by
  simp only [← addressSafe_iff]
  constructor
  · intro h image himage
    have hkey : image.upload.fileKey ∈ extractBucketKeysFromContent
        (s3PublicUrlPrefix bucketName region)
        (before.text ++ markdown (s3PublicUrlPrefix bucketName region) images) := by
      rw [h]
      exact List.mem_map_of_mem himage
    exact isAddressChar_of_mem (mem_extractBucketKeysFromContent.mp hkey)
  · intro h
    have hfinds := before.finds (head?_markdown _ images) (finds_markdown h)
    rw [← String.toList_append] at hfinds
    rw [extractBucketKeysFromContent, markdownImageUrls, ← hfinds.unique (finds_matchImages _)]
    simp only [List.map_map, List.filter_map, Function.comp_def, String.ofList_toList,
      JsString.sliceAfter_append]
    rw [List.filter_eq_self.mpr fun image _ => JsString.startsWith_iff.mpr ⟨_, rfl⟩]

/-- An upload of a file with a space in its name, as the only image of a text. -/
def spacedUpload : UploadedImage where
  dto := ⟨"my photo.png", by decide, .png⟩
  createPresignedUploadUrl fileKey _ := .ok ("https://signed/" ++ fileKey)
  date := ⟨2026, 6⟩
  randomUUID := ⟨"0a1b2c3d-0000-4000-8000-000000000000",
    @of_decide_eq_true _ (List.decidableBAll ..) rfl⟩
  upload := ⟨"https://signed/blog-media/2026-07/0a1b2c3d-0000-4000-8000-000000000000-my photo.png",
    "blog-media/2026-07/0a1b2c3d-0000-4000-8000-000000000000-my photo.png"⟩
  returned := by decide +kernel
  alt := "photo"
  alt_plain := @of_decide_eq_true _ (List.decidableBAll ..) rfl
  after := ⟨"", by decide⟩

/-- Its key does not come back. -/
theorem not_extractBucketKeysFromContent_spaced :
    extractBucketKeysFromContent (s3PublicUrlPrefix "bucket" "us-east-1")
        (markdown (s3PublicUrlPrefix "bucket" "us-east-1") [spacedUpload]) ≠
      [spacedUpload.upload.fileKey] := by
  decide +kernel

end RoundTrip

end VertexApi.Uploads
