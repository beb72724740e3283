import SqlWire.Text.Basic

/-! Backslash escapes. Cells, header fields, quoted SQL literals and quoted
elements of a bracketed literal share one table of escape letters; they differ
in what they do with a backslash at the end and with a doubled quote. -/
namespace SqlWire.Text

/-- The character that a backslash and `c` stand for. A character that is no
escape letter stands for itself. -/
def unescapeChar (c : Char) : Char :=
  match c with
  | 'n' => '\n'
  | 't' => '\t'
  | 'r' => '\r'
  | '0' => '\x00'
  | 'b' => '\x08'
  | 'f' => '\x0c'
  | other => other

/-- Undo the escapes of a cell or header field. A backslash that ends the text
stays. -/
def unescape : Text → Text
  | [] => []
  | ['\\'] => ['\\']
  | '\\' :: c :: rest => unescapeChar c :: unescape rest
  | c :: rest => c :: unescape rest

/-- The body of a quoted SQL literal: backslash, quote and NUL are escaped, all
else stands for itself. -/
def quoteBody : Text → Text
  | [] => []
  | c :: rest =>
    if c = '\x00' then '\\' :: '0' :: quoteBody rest
    else if c = '\\' then '\\' :: '\\' :: quoteBody rest
    else if c = '\'' then '\\' :: '\'' :: quoteBody rest
    else c :: quoteBody rest

/-- A single-quoted SQL literal. -/
def quote (text : Text) : Text := '\'' :: quoteBody text ++ ['\'']

/-- The text a quoted SQL literal denotes, given what stands between its outer
quotes. A doubled quote is one quote, and a backslash that ends the body is
dropped. -/
def unquote : Text → Text
  | [] => []
  | ['\\'] => []
  | '\\' :: c :: rest => unescapeChar c :: unquote rest
  | '\'' :: '\'' :: rest => '\'' :: unquote rest
  | c :: rest => c :: unquote rest

end SqlWire.Text
