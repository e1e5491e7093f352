import VertexApi.Email.EmailLayout

/-!
# The e-mail with a code

The e-mail that carries a sign-in code, from the texts of a language. Whatever the code and the
texts are, the markup of the e-mail is the same.
-/

namespace VertexApi.Email

/-- How many minutes a code lives. -/
def otpLifetimeMinutes : Nat := 10

/-- The texts of the e-mail in a language. -/
structure OtpEmailMessages where
  /-- The code of the language, here any text. -/
  language : String
  subject : String → String
  preheader : String → Nat → String
  heading : String
  instruction : String
  expiry : Nat → String
  neverShare : String
  notRequested : String
  about : String
  reason : String
  site : String
  logoAlt : String

def textCodeIndent : String := "    "

def codeDarkRules : List String :=
  [".ss-code\x7bbackground-color:" ++ dark.code ++ "!important;color:" ++ dark.accent ++
    "!important;\x7d"]

def codeBlock (code : String) : List String :=
  let style := "background-color:" ++ light.code ++
    ";border-radius:8px;padding:20px 12px 20px 18px;" ++ "font-family:" ++ monoFonts ++
    ";font-size:36px;line-height:44px;font-weight:700;" ++ "letter-spacing:6px;color:" ++
    light.accent ++ ";"
  ["<table " ++ layoutTable ++ " width=\"100%\">",
    "<tr>",
    "<td class=\"ss-code\" align=\"center\" style=\"" ++ style ++ "\">" ++ escapeHtml code ++
      "</td>",
    "</tr>",
    "</table>"]

def card (code : String) (messages : OtpEmailMessages) : List String :=
  cardRow <|
    [heading messages.heading,
      paragraph { tone := .muted, size := .body, margin := "0 0 24px 0" }
        (escapeHtml messages.instruction)] ++
    codeBlock code ++
    [paragraph { tone := .ink, size := .body, margin := "24px 0 0 0" }
        (escapeHtml (messages.expiry otpLifetimeMinutes)),
      paragraph { tone := .muted, size := .body, margin := "16px 0 0 0" }
        (escapeHtml messages.neverShare),
      paragraph { tone := .muted, size := .body, margin := "8px 0 0 0" }
        (escapeHtml messages.notRequested)]

def footer (messages : OtpEmailMessages) : List String :=
  let footnote : TextBlock := { tone := .muted, size := .small, margin := "0 0 8px 0" }
  ["<tr>",
    "<td style=\"padding:24px 8px 0 8px;\">",
    paragraph footnote (escapeHtml messages.about),
    paragraph footnote (escapeHtml messages.reason),
    paragraph { footnote with margin := "0" }
      (escapeHtml messages.site ++ ": " ++ inkLink siteUrl siteHost),
    "</td>",
    "</tr>"]

def buildHtml (code : String) (messages : OtpEmailMessages) : String :=
  emailDocument
    { language := messages.language
      title := messages.subject code
      preheader := messages.preheader code otpLifetimeMinutes
      rows := brandHeader messages.logoAlt ++ card code messages ++ footer messages
      darkRules := codeDarkRules }

def buildText (code : String) (messages : OtpEmailMessages) : String :=
  "\n".intercalate <|
    [messages.heading, ""] ++ wrapped messages.instruction ++
    ["", textCodeIndent ++ code, ""] ++ wrapped (messages.expiry otpLifetimeMinutes) ++
    [""] ++ wrapped messages.neverShare ++ wrapped messages.notRequested ++
    [""] ++ wrapped messages.about ++ wrapped messages.reason ++
    [messages.site ++ ": " ++ siteUrl]

def renderOtpEmail (code : String) (messages : OtpEmailMessages) : EmailContent where
  subject := messages.subject code
  html := buildHtml code messages
  text := buildText code messages

universe u

section Parts

variable {ι : Type u}

theorem templated_codeBlock (code : ι → String) :
    TemplatedRows escapeHtml fun i => codeBlock (code i) :=
  .append (.fixed [_, _]) (.cons (.between _ code _) (.fixed _))

theorem templated_card (code : ι → String) (messages : ι → OtpEmailMessages) :
    TemplatedRows escapeHtml fun i => card (code i) (messages i) := by
  refine templated_cardRow (.append (.append (.cons ?_ (.cons ?_ .nil)) (templated_codeBlock code))
    (.cons ?_ (.cons ?_ (.cons ?_ .nil))))
  · exact templated_heading fun i => (messages i).heading
  · exact templated_paragraph _ (.slot fun i => (messages i).instruction)
  · exact templated_paragraph _ (.slot fun i => (messages i).expiry otpLifetimeMinutes)
  · exact templated_paragraph _ (.slot fun i => (messages i).neverShare)
  · exact templated_paragraph _ (.slot fun i => (messages i).notRequested)

theorem templated_footer (messages : ι → OtpEmailMessages) :
    TemplatedRows escapeHtml fun i => footer (messages i) := by
  refine .append (.fixed [_, _]) (.cons ?_ (.cons ?_ (.cons ?_ (.fixed _))))
  · exact templated_paragraph _ (.slot fun i => (messages i).about)
  · exact templated_paragraph _ (.slot fun i => (messages i).reason)
  · exact templated_paragraph _ (.append (.append (.slot fun i => (messages i).site) (.fixed _))
      (.fixed _))

/-- The e-mail is a template for its code and its texts. -/
theorem templated_buildHtml (code : ι → String) (messages : ι → OtpEmailMessages) :
    Templated escapeHtml fun i => buildHtml (code i) (messages i) := by
  refine templated_emailDocument (fun i => (messages i).language)
    (fun i => (messages i).subject (code i))
    (fun i => (messages i).preheader (code i) otpLifetimeMinutes)
    (.append (.append ?_ ?_) ?_) codeDarkRules
  · exact templated_brandHeader fun i => (messages i).logoAlt
  · exact templated_card code messages
  · exact templated_footer messages

end Parts

/-- The characters that delimit markup are the same in the e-mails of any two codes, with any two
sets of texts: an e-mail is put together from fixed texts and escaped values. -/
theorem renderOtpEmail_markup :
    (Templated escapeHtml fun email : String × OtpEmailMessages =>
      (renderOtpEmail email.1 email.2).html) ∧
    ∀ (code code' : String) (messages messages' : OtpEmailMessages),
      (renderOtpEmail code messages).html.toList.filter (· ∈ delimiters) =
        (renderOtpEmail code' messages').html.toList.filter (· ∈ delimiters) := by
  have htemplate : Templated escapeHtml fun email : String × OtpEmailMessages =>
      (renderOtpEmail email.1 email.2).html := by
    simp only [renderOtpEmail]
    exact templated_buildHtml Prod.fst Prod.snd
  refine ⟨htemplate, fun code code' messages messages' => ?_⟩
  have hsame := htemplate.filter_eq filter_escapeHtml (code, messages) (code', messages')
  simpa only [renderOtpEmail] using hsame

end VertexApi.Email
