import VertexApi.App.MediaDifference
import VertexApi.Uploads.ImageSearch

/-!
# The media that an edited post shows

A text shows an image by its address alone, or with a title behind it. The search for images
takes the first spelling only, on one line and not inside what it has found already. An edit
deletes an image that the edited post still shows when the search has found it in the post
that was read, and no longer finds it in the edited one.
-/

namespace VertexApi.App

open Posts Uploads

/-- A key without white space, quotes and parentheses. -/
def CleanKey (key : String) : Prop :=
  ∀ c ∈ key.toList, JsString.isWhitespace c = false ∧ c.toNat ∉ [0x22, 0x27, 0x28, 0x29]

instance decidableCleanKey (key : String) : Decidable (CleanKey key) := List.decidableBAll ..

/-- The brackets of a text match, but for those behind a backslash. -/
def bracketsMatch : (escaped : Bool) → (depth : Nat) → List Char → Bool
  | escaped, depth, [] => !escaped && depth == 0
  | true, depth, _ :: chars => bracketsMatch false depth chars
  | false, depth, c :: chars =>
    if c.toNat = 0x5C then bracketsMatch true depth chars
    else if c = '[' then bracketsMatch false (depth + 1) chars
    else if c = ']' then depth != 0 && bracketsMatch false (depth - 1) chars
    else bracketsMatch false depth chars

/-- What may stand between an address and the closing parenthesis. -/
def IsTitle (text : String) : Prop :=
  text = "" ∨ ∃ title : String, text = " \"" ++ title ++ "\"" ∧ ∀ c ∈ title.toList, c.toNat ≠ 0x22

/-- The text contains the image `![alt](dest)`, or `![alt](dest "title")`. -/
def ShowsImage (dest text : String) : Prop :=
  ∃ before alt title after : String,
    text = before ++ "![" ++ alt ++ "](" ++ dest ++ title ++ ")" ++ after ∧
      bracketsMatch false 0 alt.toList = true ∧ IsTitle title

/-- An image begins here in the one spelling that the search takes: the alternative text stays on
its line and ends where an https address first follows, and the parenthesis closes right
behind the address. -/
def PlainImage (url : String) (place : List Char) : Prop :=
  ∃ alt address after, place = '!' :: '[' :: (alt ++ (targetStart ++ (address ++ ')' :: after))) ∧
    url.toList = "https://".toList ++ address ∧ address ≠ [] ∧
    (∀ c ∈ address, isAddressChar c = true) ∧ (∀ c ∈ alt, isLineTerminator c = false) ∧
    ∀ former c later, alt = former ++ c :: later →
      matchTarget (c :: later ++ (targetStart ++ (address ++ ')' :: after))) = none

namespace MediaField

/-- Whether a field is a cover. -/
def isCover : MediaField → Bool
  | content | contentEn | contentEs => false
  | coverUrl | coverUrlEn | coverUrlEs => true

/-- A field shows an object as its cover or in its text. -/
def Shows (dest : String) (field : MediaField) (text : String) : Prop :=
  if field.isCover then text = dest else ShowsImage dest text

/-- A field shows an object as its cover, or in its text in the spelling that the search takes. -/
def ShowsPlainly (publicUrlPrefix key : String) (field : MediaField) (text : String) : Prop :=
  if field.isCover then text = publicUrlPrefix ++ key ∧ key ≠ ""
  else ∃ place, ScansTo matchImage text.toList place ∧ PlainImage (publicUrlPrefix ++ key) place

/-- The value of a field after an edit. -/
def edited (post : Post) (updatePostDto : UpdatePostDto) (field : MediaField) : Option String :=
  (field.given updatePostDto).or (field.value post)

end MediaField

/-- Some field shows an object. -/
def Shows (dest : String) (value : MediaField → Option String) : Prop :=
  ∃ field text, value field = some text ∧ field.Shows dest text

/-- Some field shows an object plainly. -/
def ShowsPlainly (publicUrlPrefix key : String) (value : MediaField → Option String) : Prop :=
  ∃ field text, value field = some text ∧ field.ShowsPlainly publicUrlPrefix key text

/-- Each object that the post shows plainly, and that the edited post shows at all, it shows
plainly. -/
def StaysPlain (publicUrlPrefix : String) (post : Post) (updatePostDto : UpdatePostDto) : Prop :=
  ∀ key, CleanKey key → ShowsPlainly publicUrlPrefix key (fun field => field.value post) →
    Shows (publicUrlPrefix ++ key) (MediaField.edited post updatePostDto) →
      ShowsPlainly publicUrlPrefix key (MediaField.edited post updatePostDto)

/-- An edit hands over no object that its row shows. -/
def DeletesNoneShown (publicUrlPrefix id : String) (updatePostDto : UpdatePostDto)
    (turns : List (Turn Store ThrownError)) (s : Store) : Prop :=
  ∀ row handed,
    let ending := (PostsService.update publicUrlPrefix id updatePostDto).run (storeTurns turns) s
    findPostById ending.state.posts id = some row →
      ending.state.outbound = s.outbound ++ handed →
        ∀ key, CleanKey key → Shows (publicUrlPrefix ++ key) (fun field => field.value row) →
          ∀ keys, .deletedFiles keys ∈ handed → key ∉ keys

section Spellings

variable {publicUrlPrefix key url : String} {post : Post}

/-- The pattern takes the plain images. -/
theorem plainImage_iff {place : List Char} :
    PlainImage url place ↔ ∃ after, matchImage place = some (url.toList, after) := by
  constructor
  · rintro ⟨alt, address, after, rfl, hurl, hne, haddress, hline, hfirst⟩
    exact ⟨after, matchImage_eq_some.mpr ⟨_, rfl, matchAlternative_eq_some.mpr ⟨alt, _, rfl,
      matchTarget_eq_some.mpr ⟨address, rfl, hurl, hne, haddress⟩, hline, hfirst⟩⟩⟩
  · rintro ⟨after, himage⟩
    obtain ⟨rest, rfl, halternative⟩ := matchImage_eq_some.mp himage
    obtain ⟨alt, target, rfl, htarget, hline, hfirst⟩ := matchAlternative_eq_some.mp halternative
    obtain ⟨address, rfl, hurl, hne, haddress⟩ := matchTarget_eq_some.mp htarget
    exact ⟨alt, address, after, rfl, hurl, hne, haddress, hline, hfirst⟩

/-- The keys of a text are those of its plain images. -/
theorem mem_extractBucketKeysFromContent_iff_plainImage {text : String} :
    key ∈ extractBucketKeysFromContent publicUrlPrefix text ↔
      ∃ place, ScansTo matchImage text.toList place ∧
        PlainImage (publicUrlPrefix ++ key) place := by
  simp only [mem_extractBucketKeysFromContent, mem_markdownImageUrls, plainImage_iff,
    exists_and_left]

/-- The media of a post are what it shows plainly. -/
theorem mem_media_iff_showsPlainly : key ∈ media publicUrlPrefix post ↔
    ShowsPlainly publicUrlPrefix key fun field => field.value post := by
  have hcover : ∀ url, extractBucketKeyFromUrl publicUrlPrefix url = some key ∧ key ≠ "" ↔
      ∃ text, url = some text ∧ text = publicUrlPrefix ++ key ∧ key ≠ "" := by
    rintro (_ | url)
    · simp only [extractBucketKeyFromUrl, reduceCtorEq, false_and, exists_false]
    · simp only [extractBucketKeyFromUrl_eq_some, Option.some.injEq, exists_eq_left']
  refine exists_congr fun field => ?_
  cases field with
  | content | contentEn | contentEs =>
    exact exists_congr fun text => and_congr_right fun _ =>
      mem_extractBucketKeysFromContent_iff_plainImage
  | coverUrl | coverUrlEn | coverUrlEs => exact hcover _

end Spellings

section Edits

variable {publicUrlPrefix id : String} {updatePostDto : UpdatePostDto}
  {turns : List (Turn Store ThrownError)} {s : Store} {post : Post}

/-- What an edit that goes through has made of the fields. -/
theorem value_of_update (hturns : ∀ turn ∈ turns, LeavesPosts turn)
    (hpost : findPostById s.posts id = some post) {updated : PostsService.PostWithAuthor}
    (hok : ((PostsService.update publicUrlPrefix id updatePostDto).run
      (storeTurns turns) s).result = .ok updated) (field : MediaField) :
    field.value updated.post = field.edited post updatePostDto := by
  obtain ⟨existing, now, hpostEdit⟩ := post_of_update hturns hpost hok
  rw [hpostEdit, value_postEdit]
  rfl

/-- An edit that fails hands nothing over. -/
theorem outbound_of_update_error (hturns : ∀ turn ∈ turns, LeavesPosts turn) {failure : Failure}
    (herror : ((PostsService.update publicUrlPrefix id updatePostDto).run
      (storeTurns turns) s).result = .error failure) :
    ((PostsService.update publicUrlPrefix id updatePostDto).run
      (storeTurns turns) s).state.outbound = s.outbound := by
  obtain ⟨later, hrun⟩ := @run_update publicUrlPrefix id updatePostDto turns s
  rw [hrun] at herror ⊢
  cases hsteps : updateSteps id updatePostDto turns s with
  | error outcome => exact (posts_changed hturns outcome.1).2
  | ok outcome =>
    rw [hsteps] at herror
    cases herror

/-- An edit of a post whose objects stay plain deletes none that it shows. -/
theorem deletesNoneShown_of_staysPlain (hpost : findPostById s.posts id = some post)
    (hplain : StaysPlain publicUrlPrefix post updatePostDto)
    (hturns : ∀ turn ∈ turns, LeavesPosts turn) :
    DeletesNoneShown publicUrlPrefix id updatePostDto turns s := by
  intro row handed ending hrow hhanded key hclean hshows keys hkeys hkey
  -- Nothing that has been handed over means that no object has been deleted.
  have hnothing : ending.state.outbound ≠ s.outbound := by
    intro hsame
    rw [hsame, List.self_eq_append_right] at hhanded
    rw [hhanded] at hkeys
    exact List.not_mem_nil hkeys
  cases hresult : ending.result with
  | error failure => exact hnothing (outbound_of_update_error hturns hresult)
  | ok updated =>
    obtain ⟨existing, hexisting, hfound, hhands, -⟩ :=
      editDeletesLost hturns updatePostDto updated hresult
    obtain rfl := Option.some.inj (hpost.symm.trans hexisting)
    obtain rfl := Option.some.inj (hrow.symm.trans hfound)
    have hvalue : (fun field => field.value updated.post) = MediaField.edited post updatePostDto :=
      funext (value_of_update hturns hpost hresult)
    cases hfails : (Turn.nextFault turns.tail.tail.tail).isSome with
    | true => exact hnothing (hhands.failed hfails)
    | false =>
      rcases Set.eq_empty_or_nonempty
        (media publicUrlPrefix post \ media publicUrlPrefix updated.post) with hempty | hnonempty
      · exact hnothing (hhands.nothing hempty)
      · obtain ⟨list, -, hlist, houtbound⟩ := hhands.once hnonempty hfails
        obtain rfl := List.append_cancel_left (hhanded.symm.trans houtbound)
        obtain rfl := Outbound.deletedFiles.inj (List.mem_singleton.mp hkeys)
        obtain ⟨hold, hnew⟩ := (hlist key).mp hkey
        rw [mem_media_iff_showsPlainly, hvalue] at hnew
        rw [hvalue] at hshows
        exact hnew (hplain key hclean (mem_media_iff_showsPlainly.mp hold) hshows)

/-- An edit that goes through and deletes none of what it shows leaves the objects plain. -/
theorem staysPlain_of_deletesNoneShown (hpost : findPostById s.posts id = some post)
    {updated : PostsService.PostWithAuthor}
    (hok : ((PostsService.update publicUrlPrefix id updatePostDto).run [] s).result = .ok updated)
    (h : DeletesNoneShown publicUrlPrefix id updatePostDto [] s) :
    StaysPlain publicUrlPrefix post updatePostDto := by
  intro key hclean hold hshows
  by_contra hnew
  have hturns : ∀ turn ∈ ([] : List (Turn Store ThrownError)), LeavesPosts turn :=
    fun turn hturn => absurd hturn List.not_mem_nil
  obtain ⟨existing, hexisting, hfound, hhands, -⟩ :=
    editDeletesLost hturns updatePostDto updated hok
  obtain rfl := Option.some.inj (hpost.symm.trans hexisting)
  have hvalue : (fun field => field.value updated.post) = MediaField.edited post updatePostDto :=
    funext (value_of_update hturns hpost hok)
  have hlost : key ∈ media publicUrlPrefix post \ media publicUrlPrefix updated.post := by
    refine ⟨mem_media_iff_showsPlainly.mpr hold, fun hmem => hnew ?_⟩
    rw [← hvalue]
    exact mem_media_iff_showsPlainly.mp hmem
  obtain ⟨list, -, hlist, houtbound⟩ := hhands.once ⟨key, hlost⟩ rfl
  exact h updated.post _ hfound houtbound key hclean (hvalue ▸ hshows) list
    (List.mem_singleton.mpr rfl) ((hlist key).mpr hlost)

/-- An edit that goes through deletes none of the objects that its row shows, whatever fails,
exactly if it leaves plain what the post shows plainly and the edited one shows. -/
theorem deletesNoneShown_iff_staysPlain (publicUrlPrefix : String) {id : String} {s : Store}
    {post : Post} (hpost : findPostById s.posts id = some post) {updatePostDto : UpdatePostDto}
    {updated : PostsService.PostWithAuthor}
    (hok : ((PostsService.update publicUrlPrefix id updatePostDto).run [] s).result = .ok updated) :
    (∀ turns : List (Turn Store ThrownError), (∀ turn ∈ turns, LeavesPosts turn) →
      DeletesNoneShown publicUrlPrefix id updatePostDto turns s) ↔
    StaysPlain publicUrlPrefix post updatePostDto :=
  ⟨fun h => staysPlain_of_deletesNoneShown hpost hok
      (h [] fun _ hturn => absurd hturn List.not_mem_nil),
    fun hplain _ hturns => deletesNoneShown_of_staysPlain hpost hplain hturns⟩

end Edits

/-- A post with one image. -/
def picturedPost : Store :=
  { Store.empty with
    posts := [newPost ⟨bareFields, "t", "s", "![a](https://media/k)"⟩ "ada" "post" none 0] }

/-- A body with a content. -/
def contentEdit (content : String) : UpdatePostDto where
  toOptionalPostFields := bareFields
  title := none
  slug := none
  content := some content

/-- A post with two images. -/
def twoPictures : Store :=
  { Store.empty with
    posts := [newPost ⟨bareFields, "t", "s", "![a](https://media/k)![b](https://media/m)"⟩ "ada"
      "post" none 0] }

/-- An edit that keeps the first image as it is and drops the second one deletes only this one. -/
theorem deletesNoneShown_iff_staysPlain_twoPictures :
    ((PostsService.update "https://media/" "post" (contentEdit "![a](https://media/k)")).run []
      twoPictures).state.outbound = [.deletedFiles ["m"]] ∧
    DeletesNoneShown "https://media/" "post" (contentEdit "![a](https://media/k)") []
      twoPictures := by
  obtain ⟨updated, hupdated⟩ : ∃ updated, ((PostsService.update "https://media/" "post"
      (contentEdit "![a](https://media/k)")).run [] twoPictures).result = .ok updated :=
    ⟨_, rfl⟩
  refine ⟨by decide +kernel, (deletesNoneShown_iff_staysPlain "https://media/" rfl hupdated).mpr
    ?_ [] fun turn hturn => absurd hturn List.not_mem_nil⟩
  rintro key - hold hshows
  have hmedia : collectMediaKeys "https://media/" (newPost ⟨bareFields, "t", "s",
      "![a](https://media/k)![b](https://media/m)"⟩ "ada" "post" none 0) = ["k", "m"] := by
    decide +kernel
  have hkey : key ∈ ["k", "m"] := hmedia ▸ mem_media.mp (mem_media_iff_showsPlainly.mpr hold)
  simp only [List.mem_cons, List.not_mem_nil, or_false] at hkey
  rcases hkey with rfl | rfl
  · exact ⟨.content, _, rfl, mem_extractBucketKeysFromContent_iff_plainImage.mp (by decide +kernel)⟩
  · -- The second image's address is not in the text any more.
    obtain ⟨field, text, hvalue, hfield⟩ := hshows
    cases field with
    | content =>
      obtain ⟨before, alt, title, after, htext, -⟩ := hfield
      have hinfix : ("https://media/" ++ "m").toList <:+: text.toList :=
        ⟨(before ++ "![" ++ alt ++ "](").toList, (title ++ ")" ++ after).toList, by
          simp only [htext, String.toList_append, List.append_assoc]⟩
      obtain rfl := Option.some.inj hvalue
      exact absurd hinfix (by decide +kernel)
    | contentEn | contentEs | coverUrl | coverUrlEn | coverUrlEs => cases hvalue

/-- An edit that gives the image a title deletes it. -/
theorem not_deletesNoneShown_titled :
    (findPostById picturedPost.posts "post").isSome = true ∧
    ¬ DeletesNoneShown "https://media/" "post"
      (contentEdit "![a](https://media/k \"t\")") [] picturedPost := by
  refine ⟨rfl, fun h => ?_⟩
  obtain ⟨row, hrow⟩ : ∃ row, findPostById ((PostsService.update "https://media/" "post"
      (contentEdit "![a](https://media/k \"t\")")).run [] picturedPost).state.posts "post" =
        some row := ⟨_, rfl⟩
  have hdeleted : ((PostsService.update "https://media/" "post"
      (contentEdit "![a](https://media/k \"t\")")).run [] picturedPost).state.outbound =
        [.deletedFiles ["k"]] := by decide +kernel
  have hcontent : row.content = "![a](https://media/k \"t\")" := by
    obtain rfl := Option.some.inj hrow
    rfl
  have hshows : ShowsImage "https://media/k" "![a](https://media/k \"t\")" :=
    ⟨"", "a", " \"t\"", "", rfl, rfl, Or.inr ⟨"t", rfl, by simp⟩⟩
  exact h row _ hrow hdeleted "k" (by decide) ⟨.content, _, congrArg some hcontent, hshows⟩ ["k"]
    (List.mem_singleton.mpr rfl) (List.mem_singleton.mpr rfl)

end VertexApi.App
