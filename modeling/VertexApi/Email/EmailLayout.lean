import VertexApi.Core.Template
import VertexApi.Email.EscapeHtml
import VertexApi.Email.WrapText

/-!
# Layout of e-mails

The parts that the e-mails of the site are made of. Some of them escape what they are given, and
some leave that to their callers.
-/

namespace VertexApi.Email

/-- An e-mail as it is sent. -/
structure EmailContent where
  subject : String
  html : String
  text : String

def siteUrl : String := "https://www.samuelsantana.dev/"

/-- The host of the address of the site. -/
def siteHost : String := "www.samuelsantana.dev"

def emailMarkUrl : String := siteUrl ++ "apple-icon.png"

def textLineWidth : ℚ := 72

def contentWidthPx : Nat := 560

def logoSizePx : Nat := 40

def preheaderFillerRepeat : Nat := 20

/-- What keeps the text behind the preheader out of the preview. -/
def preheaderFiller : String :=
  String.join (List.replicate preheaderFillerRepeat "&#847;&zwnj;&nbsp;")

def sansFonts : String :=
  "-apple-system,BlinkMacSystemFont,'Segoe UI',Roboto,Helvetica,Arial,sans-serif"

def monoFonts : String := "ui-monospace,SFMono-Regular,Menlo,Consolas,'Liberation Mono',monospace"

/-- The colours of a scheme. -/
structure Palette where
  page : String
  card : String
  line : String
  ink : String
  muted : String
  code : String
  accent : String

def light : Palette where
  page := "#f4f6fa"
  card := "#ffffff"
  line := "#e3e7ee"
  ink := "#1f2430"
  muted := "#5f6b80"
  code := "#eef1f6"
  accent := "#0f8a63"

def dark : Palette where
  page := "#161c2a"
  card := "#1e2535"
  line := "#2e3649"
  ink := "#e6ebf7"
  muted := "#9da8be"
  code := "#0d1117"
  accent := "#34d399"

def layoutTable : String :=
  "role=\"presentation\" cellpadding=\"0\" cellspacing=\"0\" border=\"0\""

def preheaderStyle : String :=
  "display:none;max-height:0;max-width:0;overflow:hidden;opacity:0;mso-hide:all;" ++
    "font-size:1px;line-height:1px;color:transparent;"

/-- The tones of text. -/
inductive Tone where
  | ink
  | muted
  | accent

def Tone.className : Tone → String
  | .ink => "ss-ink"
  | .muted => "ss-muted"
  | .accent => "ss-accent"

def Tone.color : Tone → String
  | .ink => light.ink
  | .muted => light.muted
  | .accent => light.accent

/-- The sizes of text. -/
inductive TextSize where
  | body
  | small

def TextSize.style : TextSize → String
  | .body => "font-size:15px;line-height:22px;"
  | .small => "font-size:13px;line-height:20px;"

def baseDarkRules : List String :=
  [".ss-page\x7bbackground-color:" ++ dark.page ++ "!important;\x7d",
    ".ss-card\x7bbackground-color:" ++ dark.card ++ "!important;border-color:" ++ dark.line ++
      "!important;\x7d",
    ".ss-ink\x7bcolor:" ++ dark.ink ++ "!important;\x7d",
    ".ss-muted\x7bcolor:" ++ dark.muted ++ "!important;\x7d",
    ".ss-accent\x7bcolor:" ++ dark.accent ++ "!important;\x7d"]

structure TextBlock where
  tone : Tone
  size : TextSize
  margin : String

/-- A paragraph of markup. -/
def paragraph (block : TextBlock) (content : String) : String :=
  let style := "margin:" ++ block.margin ++ ";font-family:" ++ sansFonts ++ ";" ++
    block.size.style ++ "color:" ++ block.tone.color ++ ";"
  "<p class=\"" ++ block.tone.className ++ "\" style=\"" ++ style ++ "\">" ++ content ++ "</p>"

def inkLink (href label : String) : String :=
  "<a class=\"ss-ink\" href=\"" ++ escapeHtml href ++ "\" " ++
    ("style=\"color:" ++ light.ink ++ ";text-decoration:underline;\">" ++ escapeHtml label ++
      "</a>")

/-- A heading of text. -/
def heading (content : String) : String :=
  let style := "margin:0 0 8px 0;font-family:" ++ sansFonts ++
    ";font-size:20px;line-height:28px;" ++ "font-weight:600;color:" ++ light.ink ++ ";"
  "<h1 class=\"ss-ink\" style=\"" ++ style ++ "\">" ++ escapeHtml content ++ "</h1>"

def brandHeader (logoAlt : String) : List String :=
  let mark := "<img src=\"" ++ escapeHtml emailMarkUrl ++ "\" width=\"" ++ toString logoSizePx ++
    "\" " ++ "height=\"" ++ toString logoSizePx ++ "\" alt=\"" ++ escapeHtml logoAlt ++ "\" " ++
    "style=\"display:block;border:0;outline:none;\">"
  let wordmarkStyle := "padding-left:12px;vertical-align:middle;font-family:" ++ sansFonts ++
    ";" ++ "font-size:20px;line-height:28px;font-weight:700;letter-spacing:-0.02em;" ++
    "color:" ++ light.ink ++ ";"
  let wordmark := "samuel<span class=\"ss-accent\" style=\"color:" ++ light.accent ++
    ";\">santana</span>.dev"
  ["<tr>",
    "<td style=\"padding:0 0 20px 0;\">",
    "<table " ++ layoutTable ++ ">",
    "<tr>",
    "<td style=\"vertical-align:middle;\">" ++ mark ++ "</td>",
    "<td class=\"ss-ink\" style=\"" ++ wordmarkStyle ++ "\">" ++ wordmark ++ "</td>",
    "</tr>",
    "</table>",
    "</td>",
    "</tr>"]

def cardRow (content : List String) : List String :=
  let style := "background-color:" ++ light.card ++ ";border:1px solid " ++ light.line ++
    ";border-radius:12px;padding:32px;"
  ["<tr>", "<td class=\"ss-card\" style=\"" ++ style ++ "\">"] ++ content ++ ["</td>", "</tr>"]

structure EmailDocument where
  language : String
  title : String
  preheader : String
  rows : List String
  darkRules : List String

def emailDocument (document : EmailDocument) : String :=
  let contentTableStyle := "width:100%;max-width:" ++ toString contentWidthPx ++ "px;"
  "\n".intercalate <|
    ["<!doctype html>",
      "<html lang=\"" ++ escapeHtml document.language ++ "\" dir=\"ltr\">",
      "<head>",
      "<meta charset=\"utf-8\">",
      "<meta name=\"viewport\" content=\"width=device-width,initial-scale=1\">",
      "<meta name=\"x-apple-disable-message-reformatting\">",
      "<meta name=\"format-detection\" content=\"telephone=no,date=no,address=no,email=no\">",
      "<meta name=\"color-scheme\" content=\"light dark\">",
      "<meta name=\"supported-color-schemes\" content=\"light dark\">",
      "<title>" ++ escapeHtml document.title ++ "</title>",
      "<style>",
      ":root\x7bcolor-scheme:light dark;supported-color-schemes:light dark;\x7d",
      "@media (prefers-color-scheme:dark)\x7b"] ++
    baseDarkRules ++
    document.darkRules ++
    ["\x7d",
      "</style>",
      "</head>",
      "<body class=\"ss-page\" style=\"margin:0;padding:0;background-color:" ++ light.page ++
        ";\">",
      "<div style=\"" ++ preheaderStyle ++ "\">" ++ escapeHtml document.preheader,
      preheaderFiller ++ "</div>",
      "<table " ++ layoutTable ++ " width=\"100%\" class=\"ss-page\" " ++
        ("style=\"background-color:" ++ light.page ++ ";\">"),
      "<tr>",
      "<td align=\"center\" style=\"padding:32px 16px;\">",
      "<table " ++ layoutTable ++ " width=\"" ++ toString contentWidthPx ++ "\" style=\"" ++
        contentTableStyle ++ "\">"] ++
    document.rows ++
    ["</table>",
      "</td>",
      "</tr>",
      "</table>",
      "</body>",
      "</html>"]

/-- The lines of a paragraph of the text part. -/
def wrapped (paragraphText : String) : List String := wrapText paragraphText textLineWidth

/-- Escaped text holds none of the characters that delimit markup. -/
theorem filter_escapeHtml (value : String) :
    (escapeHtml value).toList.filter (· ∈ delimiters) = [] :=
  List.filter_eq_nil_iff.mpr fun _ hc => by simpa using notMem_escapeHtml hc

universe u

section Parts

variable {ι : Type u}

theorem templated_paragraph (block : TextBlock) {content : ι → String}
    (h : Templated escapeHtml content) :
    Templated escapeHtml fun i => paragraph block (content i) :=
  .append (.append (.fixed _) h) (.fixed _)

theorem templated_heading (content : ι → String) :
    Templated escapeHtml fun i => heading (content i) :=
  .between _ content _

theorem templated_brandHeader (logoAlt : ι → String) :
    TemplatedRows escapeHtml fun i => brandHeader (logoAlt i) := by
  refine .append (.fixed [_, _, _, _]) (.cons ?_ (.fixed _))
  exact .append (.append (.fixed _) (.append (.between _ logoAlt _) (.fixed _))) (.fixed _)

theorem templated_cardRow {content : ι → List String} (h : TemplatedRows escapeHtml content) :
    TemplatedRows escapeHtml fun i => cardRow (content i) :=
  .append (.append (.fixed _) h) (.fixed _)

/-- A document with rows that are built so. -/
theorem templated_emailDocument (language title preheader : ι → String) {rows : ι → List String}
    (hrows : TemplatedRows escapeHtml rows) (darkRules : List String) :
    Templated escapeHtml fun i => emailDocument
      { language := language i, title := title i, preheader := preheader i, rows := rows i,
        darkRules := darkRules } := by
  simp only [emailDocument]
  refine TemplatedRows.join "\n"
    (.append (.append (.append (.append (.append ?_ (.fixed _)) (.fixed _)) ?_) hrows) (.fixed _))
  · exact .cons (.fixed _) (.cons (.between _ language _)
      (.append (.fixed [_, _, _, _, _, _, _]) (.cons (.between _ title _) (.fixed _))))
  · exact .append (.fixed [_, _, _, _])
      (.cons (.append (.fixed _) (.slot preheader)) (.fixed _))

end Parts

end VertexApi.Email
