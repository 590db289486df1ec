/-!
# The page of the service

`Service.indexPage` — the page with which the service is used from a browser: a text field for a
diagram and a button for each thing that can be done with it.
-/

namespace Diagrams.Service

/-- The lines of the page. -/
def indexLines : List String := [
  "<!DOCTYPE html>",
  "<html lang=\"en\">",
  "<head>",
  "  <meta charset=\"utf-8\">",
  "  <title>Mermaid Converter</title>",
  "  <style>",
  "    body \x7b font-family: system-ui, sans-serif; margin: 2rem; color: #222; \x7d",
  "    textarea \x7b width: 100%; height: 16rem; font-family: monospace; \x7d",
  "    .actions button \x7b margin-right: .5rem; \x7d",
  "    #result \x7b margin-top: 1.5rem; border-top: 1px solid #ddd; padding-top: 1rem; \x7d",
  "    pre \x7b background: #f5f5f5; padding: 1rem; overflow: auto; \x7d",
  "    table \x7b border-collapse: collapse; \x7d",
  "    td, th \x7b border: 1px solid #ccc; padding: .25rem .5rem; \x7d",
  "  </style>",
  "</head>",
  "<body>",
  "  <h1>Mermaid Converter</h1>",
  "  <textarea id=\"code\">flowchart TD",
  "    A[Start] --> B\x7bIs it valid?\x7d",
  "    B -->|Yes| C[Convert]",
  "    B -->|No| D[Fix syntax]",
  "    D --> B</textarea>",
  "  <p><input id=\"name\" placeholder=\"Diagram name (optional)\"></p>",
  "  <div class=\"actions\">",
  "    <button data-action=\"validate\">Validate</button>",
  "    <button data-action=\"preview\">Preview docs</button>",
  "    <button data-action=\"drawio\">Download .drawio</button>",
  "    <button data-action=\"markdown\">Download .md</button>",
  "  </div>",
  "  <div id=\"result\"></div>",
  "",
  "  <script>",
  "    const endpoints = \x7b",
  "      validate: \"/api/validate\",",
  "      preview: \"/api/preview\",",
  "      drawio: \"/api/convert/drawio\",",
  "      markdown: \"/api/convert/markdown\",",
  "    \x7d;",
  "",
  "    function download(text, filename, type) \x7b",
  "      const link = document.createElement(\"a\");",
  "      link.href = URL.createObjectURL(new Blob([text], \x7b type \x7d));",
  "      link.download = filename;",
  "      link.click();",
  "    \x7d",
  "",
  "    document.querySelectorAll(\"[data-action]\").forEach((button) => \x7b",
  "      button.addEventListener(\"click\", async () => \x7b",
  "        const action = button.dataset.action;",
  "        const body = JSON.stringify(\x7b",
  "          code: document.getElementById(\"code\").value,",
  "          name: document.getElementById(\"name\").value || null,",
  "        \x7d);",
  "        const res = await fetch(endpoints[action], \x7b",
  "          method: \"POST\",",
  "          headers: \x7b \"Content-Type\": \"application/json\" \x7d,",
  "          body,",
  "        \x7d);",
  "        const result = document.getElementById(\"result\");",
  "        if (!res.ok) \x7b",
  "          const err = await res.json();",
  "          result.innerHTML = \"<p><strong>Error:</strong> \" + err.detail + \"</p>\";",
  "          return;",
  "        \x7d",
  "        if (action === \"validate\") \x7b",
  "          result.innerHTML = \"<pre>\" + JSON.stringify(await res.json(), null, 2) + \"</pre>\";",
  "        \x7d else if (action === \"preview\") \x7b",
  "          result.innerHTML = await res.text();",
  "        \x7d else if (action === \"drawio\") \x7b",
  "          download(await res.text(), \"diagram.drawio\", \"application/xml\");",
  "        \x7d else \x7b",
  "          download(await res.text(), \"diagram-docs.md\", \"text/markdown\");",
  "        \x7d",
  "      \x7d);",
  "    \x7d);",
  "  </script>",
  "</body>",
  "</html>"]

/-- The page. -/
def indexPage : String := "\n".intercalate indexLines

end Diagrams.Service
