import SelectorXPath.FileTree
import SelectorXPath.Gzip.Member
import SelectorXPath.SelectorList.Lines
import SelectorXPath.Text.Utf8

namespace SelectorXPath

inductive ReadFault where
  | file (error : FileError)
  | gzip (error : Gzip.GzipError)
  | notText
deriving DecidableEq, Repr

def ReadFault.message : ReadFault → Text
  | .file error => error.message
  | .gzip error => error.message
  | .notText => "stream did not contain valid UTF-8".toList

inductive ListError where
  | cannotOpen (name : Text) (error : FileError)
  | cannotRead (name : Text) (fault : ReadFault)
  | cannotDecompress (source : Text) (fault : ReadFault)
  | invalidText (fault : Utf8.Fault)
deriving DecidableEq, Repr

namespace ListError

def context : ListError → Text
  | .cannotOpen name _ => "Failed to open ".toList ++ name
  | .cannotRead name _ => "Failed to read ".toList ++ name
  | .cannotDecompress source _ =>
    "Failed to decompress gzipped selector list from ".toList ++ source
  | .invalidText _ => "Invalid UTF-8 in selector list".toList

def cause : ListError → Text
  | .cannotOpen _ error => error.message
  | .cannotRead _ fault => fault.message
  | .cannotDecompress _ fault => fault.message
  | .invalidText fault => fault.message

end ListError

def textOfBytes (bytes : Bytes) : Except ReadFault Text :=
  match Utf8.decode bytes with
  | .ok t => .ok t
  | .error _ => .error .notText

def decompressText (bytes : Bytes) : Except ReadFault Text :=
  match Gzip.decompress bytes with
  | .ok contents => textOfBytes contents
  | .error e => .error (.gzip e)

def looksCompressed : Bytes → Bool
  | 0x1F :: 0x8B :: _ => true
  | _ => false

def decodeInput (bytes : Bytes) : Except ListError Text :=
  if looksCompressed bytes then
    (decompressText bytes).mapError (.cannotDecompress "stdin".toList)
  else (Utf8.decode bytes).mapError .invalidText

def readPlain (entry : FileEntry) : Except ReadFault Text :=
  match entry.read with
  | .ok bytes => textOfBytes bytes
  | .error e => .error (.file e)

def readCompressed (entry : FileEntry) : Except ReadFault Text :=
  match entry.read with
  | .ok bytes => decompressText bytes
  | .error e => .error (.file e)

def readList (name : Text) (found : Except FileError FileEntry) : Except ListError Text :=
  if pathExtension name = some "gz".toList then
    match found with
    | .error e => .error (.cannotOpen name e)
    | .ok entry => (readCompressed entry).mapError (.cannotDecompress name)
  else
    match found with
    | .error e => .error (.cannotRead name (.file e))
    | .ok entry => (readPlain entry).mapError (.cannotRead name)

def loadFile (name : Text) (found : Except FileError FileEntry) : Except ListError (List Text) :=
  (readList name found).map selectorsOf

def loadInput (bytes : Bytes) : Except ListError (List Text) :=
  (decodeInput bytes).map selectorsOf

end SelectorXPath
