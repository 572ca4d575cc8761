/-! Label values: text cut down to what a label may hold. -/
namespace Stevedore.Label

def isAlphanumeric (c : Char) : Bool :=
  ('a' ≤ c && c ≤ 'z') || ('A' ≤ c && c ≤ 'Z') || ('0' ≤ c && c ≤ '9')

def isAllowed (c : Char) : Bool :=
  isAlphanumeric c || c = '-' || c = '_' || c = '.'

/-- The longest piece that starts and ends with an alphanumeric character. -/
def trimEdges (cs : List Char) : List Char :=
  ((cs.dropWhile fun c => !isAlphanumeric c).reverse.dropWhile fun c => !isAlphanumeric c).reverse

def sanitize (value : String) : String :=
  String.ofList (trimEdges (value.toList.filter isAllowed))

/-- The label of a version; one that leaves nothing is `unknown`. -/
def ofVersion (version : String) : String :=
  let label := sanitize version
  if label.isEmpty then "unknown" else label

end Stevedore.Label
