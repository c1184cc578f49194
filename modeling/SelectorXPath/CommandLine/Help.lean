import SelectorXPath.Report.Conversion

namespace SelectorXPath

def Anchor.about : Anchor → Text
  | .relative => "No marker: the path is relative to the context node".toList
  | .root => "`/`: rooted at the document root (or a direct child of the previous step)".toList
  | .anywhere => "`//`: anywhere below the document root (or the previous step)".toList

def OutputFormat.about : OutputFormat → Text
  | .plain => "One XPath per line".toList
  | .json => "A JSON array of conversion records".toList

structure HelpEntry where
  spelling : Text
  about : Text
  choices : List (Text × Text)
deriving DecidableEq, Repr

def padTo (width : Nat) (t : Text) : Text := t ++ List.replicate (width - t.length) ' '

def widest (texts : List Text) : Nat := texts.foldl (fun width t => max width t.length) 0

namespace HelpEntry

def selectors : HelpEntry :=
  ⟨"[SELECTORS]...".toList,
    "Selectors to convert (omit to read one selector per line from --file or stdin)".toList, []⟩

def options (full : Bool) : List HelpEntry :=
  [⟨"-f, --file <FILE>".toList,
      "Read selectors from a file, one per line (.gz files are decompressed)".toList, []⟩,
    ⟨"-r, --root <ROOT>".toList,
      "Leading path marker: relative (\"\"), root (\"/\") or anywhere (\"//\")".toList,
      Anchor.all.map fun anchor => (anchor.name, anchor.about)⟩,
    ⟨"    --format <FORMAT>".toList, "Output format".toList,
      OutputFormat.all.map fun format => (format.name, format.about)⟩,
    ⟨"-e, --echo".toList, "Print \"selector => xpath\" instead of the bare XPath".toList, []⟩,
    ⟨"-k, --keep-going".toList, "Keep converting after a selector fails".toList, []⟩,
    ⟨"    --explain".toList, "Print the scanned fragments and path tree as JSON".toList, []⟩,
    ⟨"-h, --help".toList,
      if full then "Print help (see a summary with '-h')".toList
      else "Print help (see more with '--help')".toList, []⟩,
    ⟨"-V, --version".toList, "Print version".toList, []⟩]

def summary (width : Nat) (entry : HelpEntry) : Text :=
  let choices := match entry.choices with
    | [] => []
    | choices =>
      " [possible values: ".toList ++ joinWith ", ".toList (choices.map Prod.fst) ++ [']']
  "  ".toList ++ padTo (width + 2) entry.spelling ++ entry.about ++ choices ++ ['\n']

def choiceLine (width : Nat) (choice : Text × Text) : Text :=
  "          - ".toList ++ padTo (width + 2) (choice.1 ++ ": ".toList) ++ choice.2 ++ ['\n']

def paragraph (entry : HelpEntry) : Text :=
  let choices := match entry.choices with
    | [] => []
    | choices =>
      "\n          Possible values:\n".toList ++
        choices.flatMap (choiceLine (widest (choices.map Prod.fst)))
  "  ".toList ++ entry.spelling ++ "\n          ".toList ++ entry.about ++ ['\n'] ++ choices

def sectionText (full : Bool) (title : Text) (entries : List HelpEntry) : Text :=
  title ++ ":\n".toList ++
    if full then joinWith ['\n'] (entries.map paragraph)
    else entries.flatMap (summary (widest (entries.map spelling)))

end HelpEntry

def versionText : Text := "jqxpath 0.1.0\n".toList

def usageText : Text := "Usage: jqxpath [OPTIONS] [SELECTORS]...\n".toList

def helpText (full : Bool) : Text :=
  "Convert jQuery-style CSS selectors into XPath 1.0 expressions\n\n".toList ++ usageText ++
    ['\n'] ++ HelpEntry.sectionText full "Arguments".toList [.selectors] ++
    ['\n'] ++ HelpEntry.sectionText full "Options".toList (HelpEntry.options full)

end SelectorXPath
