import LiveCanvas.Json.Writer
import LiveCanvas.Text.Cut
import LiveCanvas.Text.Escaped

/-!
# Documents of previews

The texts that a preview shows: a page that is put together from the parts a compile found, and the
pages shown instead when there is nothing to show.  What is embedded in a script element is JSON in
which no closing tag can occur.
-/

namespace LiveCanvas
namespace Document

/-- The mark on every message that a preview posts to the page around it. -/
def messageSource : Text := "nodecanvas-preview"

/-- The id of the element that a script renders into. -/
def mountPoint : Text := "root"

/-- What the page of a preview without a root says. -/
def placeholderHint : Text :=
  "Connect a CODE node (index.html or App.js) to the DOM port."

/-- A backslash in front of each slash that follows `<`. -/
def breakClosers (cs : List Rune) : List Rune :=
  ((.char ' ' :: cs).zip cs).flatMap fun (before, c) =>
    if before == '<' && c == '/' then ['\\', c] else [c]

/-- A value as JSON inside a script element. -/
def scriptJson (v : Value) : Text :=
  Text.ofList (breakClosers (Json.write Json.spaced v).toList)

/-- A text as JSON inside a script element. -/
def scriptText (s : Text) : Text :=
  scriptJson (.text s)

/-- The page of a preview that nothing is wired into. -/
def placeholder (hint : Text) : Text :=
  Text.unlines [
    "<!DOCTYPE html>",
    "<html>",
    "  <body style=\"background-color: #0f0f11; color: #71717a; font-family: sans-serif; height: 100vh; display: flex; align-items: center; justify-content: center; margin: 0;\">",
    "    <div style=\"text-align: center;\">",
    "      <p>" ++ Text.markup hint ++ "</p>",
    "    </div>",
    "  </body>",
    "</html>",
    ""]

/-- The page of a preview that does not run. -/
def stopped : Text :=
  "<body style=\"background-color: #000; color: #555; height: 100vh; display: flex; " ++
    "align-items: center; justify-content: center; margin: 0; font-family: sans-serif;\">" ++
    "STOPPED</body>"

/-- The lines of the script that are the same for all previews. -/
def telemetryLines : List String := [
  "",
  "  function stringify(arg) \x7b",
  "    if (arg === undefined) return 'undefined';",
  "    if (arg === null) return 'null';",
  "    if (arg instanceof Error) return arg.stack || (arg.name + ': ' + arg.message);",
  "    if (typeof arg === 'object') \x7b",
  "      try \x7b return JSON.stringify(arg, null, 2); \x7d catch (e) \x7b return '[Unserializable ' + Object.prototype.toString.call(arg) + ']'; \x7d",
  "    \x7d",
  "    try \x7b return String(arg); \x7d catch (e) \x7b return '[Unprintable]'; \x7d",
  "  \x7d",
  "",
  "  function send(channel, args) \x7b",
  "    try \x7b",
  "      var parts = [];",
  "      for (var i = 0; i < args.length; i++) parts.push(stringify(args[i]));",
  "      window.parent.postMessage(\x7b",
  "        source: SOURCE,",
  "        nodeId: NODE_ID,",
  "        channel: channel,",
  "        text: parts.join(' '),",
  "        timestamp: Date.now()",
  "      \x7d, '*');",
  "    \x7d catch (e) \x7b\x7d",
  "  \x7d",
  "",
  "  ['log', 'warn', 'error', 'info'].forEach(function(channel) \x7b",
  "    var original = console[channel];",
  "    console[channel] = function() \x7b",
  "      var args = Array.prototype.slice.call(arguments);",
  "      if (original) original.apply(console, args);",
  "      send(channel, args);",
  "    \x7d;",
  "  \x7d);",
  "",
  "  window.addEventListener('error', function(event) \x7b",
  "    var where = event.lineno ? '(Line ' + event.lineno + ')' : '';",
  "    send('error', where ? [event.error || event.message, where] : [event.error || event.message]);",
  "  \x7d);",
  "",
  "  window.addEventListener('unhandledrejection', function(event) \x7b",
  "    send('error', ['Unhandled promise rejection:', event.reason]);",
  "  \x7d);",
  "\x7d)();",
  "</script>"]

/-- The script that posts console lines and uncaught errors to the page around the preview. -/
def telemetryScript (previewId : Text) : Text :=
  let head : List Text := [
    "<script>",
    "(function() \x7b",
    "  var NODE_ID = " ++ scriptText previewId ++ ";",
    "  var SOURCE = " ++ scriptText messageSource ++ ";"]
  Text.unlines (head ++ telemetryLines.map Text.ofString)

/-- The module that stands for one that could not be transformed: it reports why. -/
def errorStub (message : Text) : Text :=
  "console.error(" ++ scriptText message ++ ");\n"

/-- The script that imports the root and renders it when it is a component. -/
def entryModule (specifier : Text) : Text :=
  Text.unlines [
    "<script type=\"module\">",
    "import * as entry from " ++ scriptText specifier ++ ";",
    "const Root = entry.default;",
    "if (typeof Root === 'function') \x7b",
    "  const React = await import('react');",
    "  const \x7b createRoot \x7d = await import('react-dom/client');",
    "  createRoot(document.getElementById(" ++ scriptText mountPoint ++ ")).render(React.createElement(Root));",
    "\x7d",
    "</script>"]

/-- The tag that loads a stylesheet, or a script when the address is not that of one. -/
def stylesheetTag (address : Text) : Text :=
  if (Text.toList ".css").isSuffixOf address.toList then
    "\n    <link rel=\"stylesheet\" href=\"" ++ Text.markup address ++ "\">"
  else "\n    <script src=\"" ++ Text.markup address ++ "\"></script>"

/-- The parts of a page. -/
structure Page where
  previewId : Text
  css : Text
  importMap : Value
  body : Text
  entry : Text := ""
  stylesheets : List Text := []

/-- The page from its parts. -/
def Page.render (page : Page) : Text :=
  Text.unlines [
    "<!DOCTYPE html>",
    "<html>",
    "  <head>",
    "    <meta charset=\"utf-8\">",
    "    <meta name=\"viewport\" content=\"width=device-width, initial-scale=1.0\">" ++
      Text.join (page.stylesheets.map stylesheetTag),
    "    <style>",
    page.css,
    "    </style>",
    "    " ++ telemetryScript page.previewId,
    "    <script type=\"importmap\">",
    scriptJson page.importMap,
    "    </script>",
    "  </head>",
    "  <body>",
    page.body,
    page.entry,
    "  </body>",
    "</html>",
    ""]

example : scriptText "</script>" = "\"<\\/script>\"" := by decide +kernel

end Document
end LiveCanvas
