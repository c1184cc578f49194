import SelectorXPath.Config.Basic
import SelectorXPath.FileTree
import SelectorXPath.SelectorList.Source

namespace SelectorXPath

namespace Config

def path : TreePath := [".config".toList, "jqxpath".toList, "config.toml".toList]

def writtenPath : Text := joinWith ['/'] path

def textIn : Option FileEntry → Option Text
  | some entry => (readPlain entry).toOption
  | none => none

def ofEntry (entry : Option FileEntry) : Config := ((textIn entry).bind parse).getD default

def loadFrom (home : FileTree) (file : TreePath) : Config := ofEntry (home.get? file)

def load (home : FileTree) : Config :=
  if (home.get? path).isSome then loadFrom home path else default

def saveTo (config : Config) (file : TreePath) (home : FileTree) :
    FileTree × Except FileError Unit :=
  match home.makeDirectories [] file.dropLast with
  | (made, .ok ()) => made.write file (Utf8.encode config.render)
  | (made, .error e) => (made, .error e)

def save (config : Config) (home : FileTree) : Option FileTree :=
  match config.saveTo path home with
  | (saved, .ok ()) => some saved
  | (_, .error _) => none

end Config

end SelectorXPath
