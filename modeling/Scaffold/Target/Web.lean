import Scaffold.Target.JavaScript
import Scaffold.Text.Letter

/-!
Single-page applications in TypeScript: Vue and React. Pages become components.

| here | in the program |
| --- | --- |
| `escapeText` | `html_escape` |
| `indexFile`, `bundlerFile` | `index_html`, `vite_config` |
| `sharedFiles` | `shared_sources` |
| `vueNodes` | `vue_markup` |
| `reactAttr`, `reactText`, `reactNodes` | `jsx_attr_name`, `jsx_text`, `jsx_markup` |
-/

namespace Scaffold.Target.Web

open Code Naming

def indentUnit : String := "  "

def voidTags : List String :=
  ["area", "br", "col", "embed", "hr", "img", "input", "link", "meta", "source", "track", "wbr"]

def reservedWords : List String :=
  ["true", "false", "null", "undefined", "this", "new", "typeof"]

/-- The name that an interpolation starts with, if it starts with one. -/
def stateName (source : String) : Option String :=
  let root := (Text.trimChars source.toList).takeWhile fun c =>
    Text.isAlnum c || c == '_' || c == '$'
  let name := String.ofList root
  if root.head?.any (!·.isDigit) && !reservedWords.contains name then some name else none

mutual

/-- The names that interpolations in a piece of markup start with. -/
def statesIn : Model.Markup → List String
  | .interpolation source => (stateName source).toList
  | .element _ _ _ children => states children
  | .text _ => []

/-- The names that interpolations in pieces of markup start with. -/
def states : List Model.Markup → List String
  | [] => []
  | node :: rest => statesIn node ++ states rest

end

/-- The names that a page shows, in order of first use. -/
def stateNames (p : Model.Page) : List String :=
  Text.distinct (states p.markup)

/-- The pages that a page shows, then its parent and its layout. -/
def pageImports (p : Model.Page) : List String :=
  (Text.distinct (Model.Markup.components p.markup ++ p.parent.toList ++ p.layout.toList)).filter
    (· != p.name)

/-- Code inside the elements of the layout and, in that, of the parent of a page. -/
def wrapped (p : Model.Page) (body : Code) : Code :=
  (p.layout.toList ++ p.parent.toList).foldr
    (fun w body => between s!"<{pascal w}>" body s!"</{pascal w}>") body

def escapeText (s : String) : String :=
  Text.replaceChar '>' "&gt;" (Text.replaceChar '<' "&lt;" (Text.replaceChar '&' "&amp;" s))

def escapeQuotes (s : String) : String :=
  Text.replaceChar '"' "\\\"" s

/-- The start of a tag with its attributes. -/
def openTag (tag : String) (attrs : List (String × Option String)) : String :=
  s!"<{tag}" ++ String.join (attrs.map fun (name, value) =>
    match value with
    | some v => s!" {name}=\"" ++ Text.replaceChar '"' "&quot;" v ++ "\""
    | none => s!" {name}")

/-- The page that loads the application. -/
def indexFile (p : Project) (entry mount : String) : GeneratedFile :=
  let code := line "<!DOCTYPE html>"
    ++ between "<html lang=\"en\">"
      (between "<head>"
          (lines
            ["<meta charset=\"UTF-8\" />",
              "<meta name=\"viewport\" content=\"width=device-width, initial-scale=1.0\" />",
              s!"<title>{escapeText p.label}</title>"])
          "</head>"
        ++ between "<body>"
          (lines
            [s!"<div id=\"{mount}\"></div>",
              s!"<script type=\"module\" src=\"{entry}\"></script>"])
          "</body>")
      "</html>"
  code.file "index.html" indentUnit

/-- The bundler's settings. -/
def bundlerFile (package plugin : String) : GeneratedFile :=
  let code := lines
      ["import \x7b defineConfig \x7d from \"vite\";", s!"import {plugin} from \"{package}\";"]
    ++ blank
    ++ between "export default defineConfig(\x7b" (line s!"plugins: [{plugin}()],") "\x7d);"
  code.file "vite.config.ts" indentUnit

/-- Models, requests and functions. -/
def sharedFiles (m : CodeModel) : List GeneratedFile :=
  let functions : Code :=
    (if m.clients.isEmpty then []
      else JavaScript.importNames (m.clients.map fun c => pascal c.name) "./api")
    ++ JavaScript.functions true "export " m
  [(JavaScript.models true m).file "src/models.ts" indentUnit]
    ++ (if m.clients.isEmpty then []
      else [(JavaScript.clients true m).file "src/api.ts" indentUnit])
    ++ (if m.procedures.isEmpty && m.constants.isEmpty then []
      else [functions.file "src/functions.ts" indentUnit])

/-- The call of the function where the program starts, if there is one. -/
def callMain (m : CodeModel) : Code :=
  if m.entry?.isSome then
    line "import \x7b main \x7d from \"./functions\";" ++ blank ++ line "main();"
  else []

/-! ## Vue -/

mutual

/-- Markup in a template. -/
def vueNode : Model.Markup → Code
  | .text s => line (escapeText s)
  | .interpolation source => line ("\x7b\x7b " ++ source ++ " \x7d\x7d")
  | .element tag attrs component children =>
    let tag := if component then pascal tag else tag
    let start := openTag tag attrs
    if children.isEmpty then
      if component || voidTags.contains tag || tag == "slot" then line s!"{start} />"
      else line s!"{start}></{tag}>"
    else between s!"{start}>" (vueNodes children) s!"</{tag}>"

/-- Pieces of markup in a template. -/
def vueNodes : List Model.Markup → Code
  | [] => []
  | node :: rest => vueNode node ++ vueNodes rest

end

/-- The value that a name starts with: the title of the page for `title`. -/
def initialValue (p : Model.Page) (name : String) : String :=
  match name, p.title with
  | "title", some title => "\"" ++ escapeQuotes title ++ "\""
  | _, _ => "null"

/-- The component of a page. -/
def vuePage (p : Model.Page) : GeneratedFile :=
  let state := stateNames p
  let code := between "<template>" (wrapped p (vueNodes p.markup)) "</template>" ++ blank
    ++ line "<script setup lang=\"ts\">"
    ++ (if state.isEmpty then [] else line "import \x7b ref \x7d from \"vue\";")
    ++ lines ((pageImports p).map fun n => s!"import {pascal n} from \"./{pascal n}.vue\";")
    ++ (if state.isEmpty then [] else blank)
    ++ lines (state.map fun n => s!"const {n} = ref<any>({initialValue p n});")
    ++ line "</script>"
  code.file s!"src/pages/{pascal p.name}.vue" indentUnit

/-- A route to a page. -/
def vueRoute (p : Model.Page) (route : String) : String :=
  s!"\x7b path: \"{route}\", component: () => import(\"./pages/{pascal p.name}.vue\"), "
    ++ s!"meta: \x7b title: \"{escapeQuotes (p.title.getD p.name)}\" \x7d \x7d,"

/-- The router. -/
def vueRouter (m : CodeModel) : GeneratedFile :=
  let routes := m.pages.filterMap fun p => p.route.map (vueRoute p)
  let code := line "import \x7b createRouter, createWebHistory \x7d from \"vue-router\";" ++ blank
    ++ between "export const router = createRouter(\x7b"
      (line "history: createWebHistory()," ++ between "routes: [" (lines routes) "],")
      "\x7d);"
    ++ blank
    ++ between "router.afterEach((to) => \x7b"
      (line "document.title = (to.meta.title as string | undefined) ?? document.title;")
      "\x7d);"
  code.file "src/router.ts" indentUnit

/-- Declarations that let scripts import components. -/
def vueEnvironment : GeneratedFile :=
  let code := line "/// <reference types=\"vite/client\" />" ++ blank
    ++ braces "declare module \"*.vue\""
      (lines
        ["import type \x7b DefineComponent \x7d from \"vue\";",
          "const component: DefineComponent<object, object, any>;",
          "export default component;"])
  code.file "src/env.d.ts" indentUnit

/-- A Vue application. -/
def vue (m : CodeModel) (p : Project) : List GeneratedFile :=
  let app := between "<template>" (line "<router-view />") "</template>"
  let main := lines
      ["import \x7b createApp \x7d from \"vue\";",
        "import App from \"./App.vue\";",
        "import \x7b router \x7d from \"./router\";"]
    ++ callMain m ++ blank ++ line "createApp(App).use(router).mount(\"#app\");"
  [JavaScript.packageFile p "src/main.ts"
      [("dev", "vite"), ("build", "vue-tsc && vite build"), ("preview", "vite preview")]
      [("vue", "^3.4.27"), ("vue-router", "^4.3.2")]
      [("@vitejs/plugin-vue", "^5.0.4"), ("typescript", "^5.4.0"), ("vite", "^5.2.0"),
        ("vue-tsc", "^2.0.19")],
    JavaScript.compilerSettings,
    bundlerFile "@vitejs/plugin-vue" "vue",
    indexFile p "/src/main.ts" "app",
    vueEnvironment]
    ++ sharedFiles m ++ m.pages.map vuePage
    ++ [vueRouter m, app.file "src/App.vue" indentUnit, main.file "src/main.ts" indentUnit]

/-! ## React -/

/-- The name of an attribute in a component; those of events are in camel case. -/
def reactAttr (name : String) : String :=
  match name with
  | "class" => "className"
  | "for" => "htmlFor"
  | "tabindex" => "tabIndex"
  | "readonly" => "readOnly"
  | _ =>
    match Text.afterHead "on" name with
    | some event =>
      if event != "" && event.toList.all Char.isLower then "on" ++ pascal event else name
    | none => name

/-- Text in a component; text with brackets is quoted. -/
def reactText (s : String) : String :=
  if s.toList.any fun c => c == '\x7b' || c == '\x7d' || c == '<' || c == '>' then
    "\x7b\"" ++ escapeQuotes (Text.replaceChar '\\' "\\\\" s) ++ "\"\x7d"
  else s

mutual

/-- Markup in a component. -/
def reactNode : Model.Markup → Code
  | .text s => line (reactText s)
  | .interpolation source => line (Url.braced source)
  | .element tag attrs component children =>
    if tag == "slot" then line "\x7bchildren\x7d"
    else
      let tag := if component then pascal tag else tag
      let start := openTag tag (attrs.map fun (name, value) => (reactAttr name, value))
      if children.isEmpty then line s!"{start} />"
      else between s!"{start}>" (reactNodes children) s!"</{tag}>"

/-- Pieces of markup in a component. -/
def reactNodes : List Model.Markup → Code
  | [] => []
  | node :: rest => reactNode node ++ reactNodes rest

end

/-- The component of a page. -/
def reactPage (p : Model.Page) : GeneratedFile :=
  let state := stateNames p
  let head :=
    s!"export default function {pascal p.name}(\x7b children \x7d: "
      ++ "\x7b children?: ReactNode \x7d)"
  let code :=
    JavaScript.importNames ("type ReactNode" :: if state.isEmpty then [] else ["useState"]) "react"
    ++ lines ((pageImports p).map fun n => s!"import {pascal n} from \"./{pascal n}\";") ++ blank
    ++ braces head
      (lines (state.map fun n => s!"const [{n}] = useState<any>({initialValue p n});")
        ++ between "return ("
          (between "<>" (wrapped p (reactNodes p.markup)) "</>")
          ");")
  code.file s!"src/pages/{pascal p.name}.tsx" indentUnit

/-- The application with its routes. -/
def reactApp (m : CodeModel) : GeneratedFile :=
  let routed := m.pages.filterMap fun p => p.route.map fun r => (r, pascal p.name)
  let code := line "import \x7b BrowserRouter, Route, Routes \x7d from \"react-router-dom\";"
    ++ lines (routed.map fun (_, page) => s!"import {page} from \"./pages/{page}\";") ++ blank
    ++ braces "export default function App()"
      (between "return ("
        (between "<BrowserRouter>"
          (between "<Routes>"
            (lines (routed.map fun (route, page) =>
              s!"<Route path=\"{route}\" element=\x7b<{page} />\x7d />"))
            "</Routes>")
          "</BrowserRouter>")
        ");")
  code.file "src/App.tsx" indentUnit

/-- A React application. -/
def react (m : CodeModel) (p : Project) : List GeneratedFile :=
  let main := lines
      ["import \x7b StrictMode \x7d from \"react\";",
        "import \x7b createRoot \x7d from \"react-dom/client\";",
        "import App from \"./App\";"]
    ++ callMain m ++ blank
    ++ between "createRoot(document.getElementById(\"root\")!).render("
      (between "<StrictMode>" (line "<App />") "</StrictMode>,")
      ");"
  [JavaScript.packageFile p "src/main.tsx"
      [("dev", "vite"), ("build", "tsc && vite build"), ("preview", "vite preview")]
      [("react", "^18.3.1"), ("react-dom", "^18.3.1"), ("react-router-dom", "^6.23.1")]
      [("@types/react", "^18.3.3"), ("@types/react-dom", "^18.3.0"),
        ("@vitejs/plugin-react", "^4.3.0"), ("typescript", "^5.4.0"), ("vite", "^5.2.0")],
    JavaScript.compilerSettings,
    bundlerFile "@vitejs/plugin-react" "react",
    indexFile p "/src/main.tsx" "root"]
    ++ sharedFiles m ++ m.pages.map reactPage
    ++ [reactApp m, main.file "src/main.tsx" indentUnit]

end Scaffold.Target.Web
